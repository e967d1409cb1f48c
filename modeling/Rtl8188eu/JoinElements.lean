import Rtl8188eu.ElementWalks
import Rtl8188eu.SecurityElements

/-!
# The elements of a join

`rtw_joinbss_cmd` builds the list of elements that a join works with from the list of the network
and the settings of the station : `rtw_restruct_sec_ie` puts the security elements behind the fixed
bytes, `rtw_append_pmkid` extends the RSN element, `rtw_restruct_wmm_ie` and `rtw_restructure_ht_ie`
append the WMM and the HT elements. Each of them writes behind what is there, and changes bytes of
it at fixed places.

`joinbssCmd_elements` : on what they are made for, the list is the one that the settings and the
network call for.
-/

namespace Rtl8188eu

open Tlv

/-! ## The functions of the source -/

/-- `Ndis802_11AuthModeWPA`. -/
def ndis80211AuthModeWPA : ℕ := 3
/-- `Ndis802_11AuthModeWPA2`. -/
def ndis80211AuthModeWPA2 : ℕ := 6
/-- `Ndis802_11AuthModeWPA2PSK`. -/
def ndis80211AuthModeWPA2PSK : ℕ := 7
/-- `_WPA_IE_ID_`. -/
def wpaIeId : UInt8 := 0xdd
/-- `NUM_PMKID_CACHE`. -/
def numPmkidCache : ℕ := 16
/-- `sizeof (struct ieee80211_ht_addt_info)`. -/
def htAddtInfoSz : ℕ := 22
/-- `MAX_AMPDU_FACTOR_64K`. -/
def maxAmpduFactor64K : UInt8 := 3

/-- An entry of `PMKIDList`. -/
structure RtPmkid where
  bUsed : Bool
  bssid : MacAddr
  pmkid : Vector UInt8 16

/-- What `rtw_joinbss_cmd` reads of the device. -/
structure JoinEnv where
  ndisauthtype : ℕ
  dot11PrivacyAlgrthm : PrivacyAlgrthm
  /-- `WIFI_UNDER_WPS`. -/
  underWps : Bool
  /-- The first `wps_ie_len` bytes of `wps_ie`. -/
  wpsIe : List UInt8
  /-- The element at the start of `supplicant_ie`. -/
  supplicantIe : Elem
  pmkidList : ℕ → RtPmkid
  assocByBssid : Bool
  assocBssid : MacAddr
  wmmEnable : Bool
  htEnable : Bool

/-- The scanned network : its address and its `IEs`. -/
structure JoinBss where
  macAddress : MacAddr
  ies : Mem
  ieLength : ℕ

namespace JoinEnv

variable (env : JoinEnv)

/-- `authmode`, which has the byte that is on the stack if none of the modes sets it. -/
def authmode (stack : UInt8) : UInt8 :=
  let authmode :=
    if env.ndisauthtype = ndis80211AuthModeWPA ∨ env.ndisauthtype = ndis80211AuthModeWPAPSK then wpaIeId else stack
  if env.ndisauthtype = ndis80211AuthModeWPA2 ∨ env.ndisauthtype = ndis80211AuthModeWPA2PSK then wpa2IeId
  else authmode

/-- `SecIsInPMKIDList`. -/
def secIsInPmkidList (bssid : MacAddr) : Option ℕ :=
  (List.range numPmkidCache).find? fun i => (env.pmkidList i).bUsed && (env.pmkidList i).bssid = bssid

/-- `rtw_append_pmkid`. -/
def rtwAppendPmkid (iEntry : ℕ) (ie : Mem) (ieLen : ℕ) : Mem × ℕ :=
  if (ie 13).toNat ≤ 20 then
    let ie := (ie.write ieLen [1, 0]).write (ieLen + 2 : ℕ) (env.pmkidList iEntry).pmkid.toList
    (ie.write 13 [ie 13 + 18], ieLen + 2 + 16)
  else (ie, ieLen)

/-- `rtw_restruct_sec_ie` up to the search for the PMKID. -/
def copySecIe (stack : UInt8) (inIe outIe : Mem) : Mem × ℕ :=
  let outIe := outIe.write 0 (inIe.read 0 12)
  if env.underWps then (outIe.write 12 env.wpsIe, 12 + env.wpsIe.length)
  else if env.authmode stack = wpaIeId ∨ env.authmode stack = wpa2IeId then
    (outIe.write 12 env.supplicantIe.bytes, 12 + (env.supplicantIe.body.length + 2))
  else (outIe, 12)

/-- `rtw_restruct_sec_ie` : the list in `out_ie` and its length. -/
def rtwRestructSecIe (stack : UInt8) (assocBssid : MacAddr) (inIe outIe : Mem) : Mem × ℕ :=
  let (outIe, ielength) := env.copySecIe stack inIe outIe
  match env.secIsInPmkidList assocBssid with
  | none => (outIe, ielength)
  | some iEntry =>
    if env.authmode stack = wpa2IeId then env.rtwAppendPmkid iEntry outIe ielength else (outIe, ielength)

end JoinEnv

/-- The loop of `rtw_restruct_wmm_ie`. -/
def restructWmmLoop (inIe : Mem) (inLen : ℕ) (outIe : Mem) (initialOutLen : ℕ) : ℕ → ℕ → ℕ → Mem × ℕ
  | 0, _, ielength => (outIe, ielength)
  | fuel + 1, i, ielength =>
    if i < inLen then
      if inIe i = vendorSpecificIe ∧ inIe.read (i + 2) 4 = wmmOui ∧ i + 5 < inLen then
        let outIe := outIe.write initialOutLen (inIe.read i 9)
        let outIe := outIe.write (initialOutLen + 1) [0x07]
        let outIe := outIe.write (initialOutLen + 6) [0x00]
        (outIe.write (initialOutLen + 8) [0x00], initialOutLen + 9)
      else restructWmmLoop inIe inLen outIe initialOutLen fuel (i + ((inIe (i + 1)).toNat + 2)) initialOutLen
    else (outIe, ielength)

/-- `rtw_restruct_wmm_ie`. -/
def rtwRestructWmmIe (inIe outIe : Mem) (inLen initialOutLen : ℕ) : Mem × ℕ :=
  restructWmmLoop inIe inLen outIe initialOutLen inLen 12 0

namespace JoinEnv

variable (env : JoinEnv)

/-- `WMM_IE`. -/
def wmmIe : List UInt8 := [0x00, 0x50, 0xf2, 0x02, 0x00, 0x01, 0x00]

/-- `ht_capie`. -/
def htCapie : List UInt8 :=
  [0xe2, 0x10, maxAmpduFactor64K &&& 0x03 ||| (if env.dot11PrivacyAlgrthm = .aes then 0x1c else 0x00)] ++
    List.replicate 23 0

/-- The list in `out_ie`, its length and `qos_option`. -/
structure Built where
  ies : Mem
  len : ℕ
  qos : Bool

/-- An element behind the list. -/
def Built.setIe (b : Built) (index : UInt8) (source : List UInt8) : Built :=
  let (_, ies, len) := rtwSetIe b.ies b.len index source b.len
  { b with ies := ies, len := len }

/-- `rtw_restructure_ht_ie`. -/
def rtwRestructureHtIe (inIe : Mem) (inLen : ℕ) (b : Built) : Built :=
  match rtwGetIe inIe 12 htCapabilityIe (inLen - 12) with
  | none => b
  | some (_, ielen) =>
    if 0 < ielen then
      let b := if b.qos then b else { b.setIe vendorSpecificIe wmmIe with qos := true }
      let b := b.setIe htCapabilityIe env.htCapie
      match rtwGetIe inIe 12 htExtraInfoIe (inLen - 12) with
      | none => b
      | some (p, ielen) => if ielen = htAddtInfoSz then b.setIe htExtraInfoIe (inIe.read (p + 2) ielen) else b
    else b

/-- The call of `rtw_restruct_wmm_ie`, behind a list with `ielength` bytes. -/
def joinWmm (inIe : Mem) (inLen : ℕ) (outIe : Mem) (ielength : ℕ) : Built :=
  if env.wmmEnable then
    let (outIe, tmpLen) := rtwRestructWmmIe inIe outIe inLen ielength
    if ielength ≠ tmpLen then ⟨outIe, tmpLen, true⟩ else ⟨outIe, ielength, false⟩
  else ⟨outIe, ielength, false⟩

/-- The call of `rtw_restructure_ht_ie`. -/
def joinHt (inIe : Mem) (inLen : ℕ) (b : Built) : Built :=
  if env.htEnable ∧ env.dot11PrivacyAlgrthm ≠ .wep40 ∧ env.dot11PrivacyAlgrthm ≠ .wep104 ∧
      env.dot11PrivacyAlgrthm ≠ .tkip then env.rtwRestructureHtIe inIe inLen b
  else b

/-- The elements of `rtw_joinbss_cmd`. `psecnetwork` is a copy of the network in cleared memory. -/
def joinbssCmd (stack : UInt8) (net : JoinBss) : Built :=
  let outIe : Mem := Mem.write (fun _ => 0) 0 (net.ies.read 0 net.ieLength)
  let assocBssid := if env.assocByBssid then env.assocBssid else net.macAddress
  let (outIe, ielength) := env.rtwRestructSecIe stack assocBssid net.ies outIe
  env.joinHt net.ies net.ieLength (env.joinWmm net.ies net.ieLength outIe ielength)

end JoinEnv

/-! ## What the list is made of -/

/-- The fields of an RSN element. Behind the suites there may be the capabilities, and behind them
PMKIDs. -/
structure Rsn where
  version : Vector UInt8 2
  group : Vector UInt8 4
  pairwise : List (Vector UInt8 4)
  akm : List (Vector UInt8 4)
  capabilities : Option (Vector UInt8 2 × Option (List (Vector UInt8 16)))

namespace Rsn

/-- A number of entries and the entries. -/
def counted {n : ℕ} (xs : List (Vector UInt8 n)) : List UInt8 :=
  le16Bytes xs.length ++ (xs.map Vector.toList).flatten

def body (r : Rsn) : List UInt8 :=
  r.version.toList ++ r.group.toList ++ counted r.pairwise ++ counted r.akm ++
    match r.capabilities with
    | none => []
    | some (caps, none) => caps.toList
    | some (caps, some pmkids) => caps.toList ++ counted pmkids

/-- The element with its own PMKIDs, or with this one. -/
def withPmkid (r : Rsn) (pmkid : Vector UInt8 16) : Rsn :=
  { r with capabilities := r.capabilities.map fun c => (c.1, some (c.2.getD [pmkid])) }

/-- The element has one suite of a kind and capabilities and no PMKIDs, or it has capabilities and
PMKIDs. -/
def Regular (r : Rsn) : Prop :=
  (r.pairwise.length = 1 ∧ r.akm.length = 1 ∧ ∃ caps, r.capabilities = some (caps, none)) ∨
    ∃ caps pmkid pmkids, r.capabilities = some (caps, some (pmkid :: pmkids))

theorem length_counted {n : ℕ} (xs : List (Vector UInt8 n)) :
    (counted xs).length = 2 + n * xs.length := by
  unfold counted le16Bytes
  rw [List.length_append, List.length_flatten, List.map_map]
  have hmap : List.map (List.length ∘ Vector.toList) xs = List.replicate xs.length n := by
    rw [List.eq_replicate_iff]
    refine ⟨List.length_map .., fun k hk => ?_⟩
    obtain ⟨x, -, rfl⟩ := List.mem_map.mp hk
    exact x.length_toList
  rw [hmap, List.sum_replicate, smul_eq_mul, Nat.mul_comm]
  rfl

/-- The PMKID is put behind an element without PMKIDs. -/
theorem body_withPmkid (r : Rsn) (h : r.Regular) (pmkid : Vector UInt8 16) :
    (r.withPmkid pmkid).body =
    if r.body.length ≤ 20 then r.body ++ ([1, 0] ++ pmkid.toList) else r.body := by
  rcases h with ⟨hpair, hakm, caps, hcaps⟩ | ⟨caps, k, ks, hcaps⟩
  · have hlen : r.body.length = 20 := by
      unfold body
      rw [hcaps]
      simp only [List.length_append, Vector.length_toList, length_counted, hpair, hakm]
    rw [if_pos hlen.le]
    unfold body withPmkid counted le16Bytes
    rw [hcaps]
    simp
  · have hlen : 20 < r.body.length := by
      unfold body
      rw [hcaps]
      simp only [List.length_append, Vector.length_toList, length_counted, List.length_cons]
      omega
    rw [if_neg (Nat.not_le.mpr hlen)]
    unfold body withPmkid
    rw [hcaps]
    rfl

end Rsn

/-- A WMM information element with a version. -/
def wmmInfo (version : UInt8) : Elem := ⟨vendorSpecificIe, wmmOui ++ [0x00, version, 0x00], by change 7 ≤ 255; decide⟩

namespace JoinEnv

variable (env : JoinEnv)

/-- The mode is WPA. -/
def Wpa : Prop := env.ndisauthtype = ndis80211AuthModeWPA ∨ env.ndisauthtype = ndis80211AuthModeWPAPSK

/-- The mode is WPA2. -/
def Wpa2 : Prop := env.ndisauthtype = ndis80211AuthModeWPA2 ∨ env.ndisauthtype = ndis80211AuthModeWPA2PSK

instance : Decidable env.Wpa := inferInstanceAs (Decidable (_ ∨ _))
instance : Decidable env.Wpa2 := inferInstanceAs (Decidable (_ ∨ _))

/-- The address that is looked for in the cache. -/
def target (net : JoinBss) : MacAddr := if env.assocByBssid then env.assocBssid else net.macAddress

/-- The PMKID of an address in the cache. -/
def cached (bssid : MacAddr) : Option (Vector UInt8 16) :=
  (env.secIsInPmkidList bssid).map fun i => (env.pmkidList i).pmkid

/-- The security elements : the WPS element, or the one of the supplicant, for WPA2 with the PMKID
of the target. -/
def SecurityElems (target : MacAddr) (sec : List Elem) : Prop :=
  if env.underWps then encode sec = env.wpsIe
  else if env.Wpa2 then
    match env.cached target with
    | none => sec = [env.supplicantIe]
    | some pmkid => ∃ rsn e, env.supplicantIe.body = Rsn.body rsn ∧ rsn.Regular ∧ sec = [e] ∧
        e.id = env.supplicantIe.id ∧ e.body = (rsn.withPmkid pmkid).body
  else if env.Wpa then sec = [env.supplicantIe]
  else sec = []

/-- The WMM element that the network announces. -/
def announcedWmm (es : List Elem) : Option Elem := es.find? (Own vendorSpecificIe wmmOui)

/-- The WMM element for a network that announces one. -/
def wmmElems (es : List Elem) : List Elem :=
  if env.wmmEnable then (announcedWmm es).toList.map fun e => wmmInfo (e.body.getD 5 0) else []

/-- HT is used with the cipher. -/
def UsesHt : Prop :=
  env.htEnable ∧ env.dot11PrivacyAlgrthm ≠ .wep40 ∧ env.dot11PrivacyAlgrthm ≠ .wep104 ∧
    env.dot11PrivacyAlgrthm ≠ .tkip

instance : Decidable env.UsesHt := inferInstanceAs (Decidable (_ ∧ _))

/-- The HT capability element of the station. -/
def htCap : Elem where
  id := htCapabilityIe
  body := env.htCapie
  length_le := by
    change 3 + 23 ≤ 255
    decide

/-- The network announces HT. -/
def AnnouncesHt (es : List Elem) : Prop := ∃ e ∈ es.find? (fun e => decide (e.id = htCapabilityIe)), e.body ≠ []

instance (es : List Elem) : Decidable (AnnouncesHt es) := inferInstanceAs (Decidable (∃ e ∈ _, _))

/-- The HT elements for a network that announces HT, behind a WMM element if there is none yet. -/
def htElems (es : List Elem) : List Elem :=
  if env.UsesHt ∧ AnnouncesHt es then
    (if env.wmmElems es = [] then [wmmInfo 1] else []) ++ env.htCap ::
      ((es.find? fun e => decide (e.id = htExtraInfoIe)).toList.filter fun e => e.body.length = htAddtInfoSz)
  else []

end JoinEnv

/-! ## Bytes behind others -/

section Behind

variable {m : Mem} {bs xs ys zs : List UInt8}

/-- Bytes are written behind the ones that are there. -/
theorem holds_write_behind (h : m.Holds 0 bs) (xs : List UInt8) :
    (m.write bs.length xs).Holds 0 (bs ++ xs) := by
  have hbehind := h.write_behind xs
  rwa [zero_add] at hbehind

/-- Bytes between others are replaced. -/
theorem holds_write_between (h : m.Holds 0 (xs ++ (ys ++ zs))) (ys' : List UInt8)
    (hlen : ys'.length = ys.length) :
    (m.write xs.length ys').Holds 0 (xs ++ (ys' ++ zs)) := by
  have hbetween := h.write_between hlen
  rwa [zero_add] at hbetween

end Behind

/-! ## The security elements -/

namespace JoinEnv

variable {env : JoinEnv} {stack : UInt8} {fixed : List UInt8} {inIe outIe : Mem}

/-- The byte on the stack is not taken for an id. -/
def Settles (env : JoinEnv) (stack : UInt8) : Prop := env.Wpa ∨ env.Wpa2 ∨ stack ≠ wpaIeId ∧ stack ≠ wpa2IeId

theorem authmode_wpa2 (h : env.Wpa2) : env.authmode stack = wpa2IeId := if_pos h

theorem authmode_wpa (h2 : ¬env.Wpa2) (h : env.Wpa) : env.authmode stack = wpaIeId :=
    (if_neg h2).trans (if_pos h)

theorem authmode_other (h2 : ¬env.Wpa2) (h : ¬env.Wpa) : env.authmode stack = stack :=
    (if_neg h2).trans (if_neg h)

/-- Without WPA2 no PMKID is appended. -/
theorem authmode_ne_wpa2 (h2 : ¬env.Wpa2) (hs : env.Settles stack) :
    env.authmode stack ≠ wpa2IeId := by
  by_cases hw : env.Wpa
  · rw [authmode_wpa h2 hw]
    decide
  · rw [authmode_other h2 hw]
    rcases hs with hs | hs | hs
    · exact absurd hs hw
    · exact absurd hs h2
    · exact hs.2

/-- A buffer with a list in it. -/
def Lists (fixed : List UInt8) (es : List Elem) (r : Mem × ℕ) : Prop :=
  r.1.Holds 0 (fixed ++ encode es) ∧ r.2 = (fixed ++ encode es).length

/-- There is an element with the PMKID. -/
theorem exists_withPmkid {e : Elem} {rsn : Rsn} (hbody : e.body = rsn.body) (hrsn : rsn.Regular)
    (pmkid : Vector UInt8 16) : ∃ e' : Elem, e'.id = e.id ∧
    e'.body = (rsn.withPmkid pmkid).body := by
  rw [rsn.body_withPmkid hrsn, ← hbody]
  split_ifs with hle
  · refine ⟨⟨e.id, e.body ++ ([1, 0] ++ pmkid.toList), ?_⟩, rfl, rfl⟩
    simp only [List.length_append, List.length_cons, List.length_nil, Vector.length_toList]
    omega
  · exact ⟨e, rfl, rfl⟩

/-- The PMKID is put behind the element that is the only one. -/
theorem rtwAppendPmkid_lists {e e' : Elem} {iEntry ieLen : ℕ} (hfixed : fixed.length = 12)
    {rsn : Rsn}
    (hbody : e.body = rsn.body) (hrsn : rsn.Regular) (hid' : e'.id = e.id)
    (hbody' : e'.body = (rsn.withPmkid (env.pmkidList iEntry).pmkid).body)
    (h : Lists fixed [e] (outIe, ieLen)) :
    Lists fixed [e'] (env.rtwAppendPmkid iEntry outIe ieLen) := by
  obtain ⟨hmem, rfl⟩ : outIe.Holds 0 (fixed ++ encode [e]) ∧ ieLen = (fixed ++ encode [e]).length :=
    h
  have hlen13 : outIe 13 = e.len := by
    have hrest := (Mem.holds_append.mp hmem).2
    rw [hfixed] at hrest
    exact (Mem.holds_cons.mp (Mem.holds_cons.mp hrest).2).1
  rw [rsn.body_withPmkid hrsn, ← hbody] at hbody'
  unfold rtwAppendPmkid
  rw [hlen13, e.toNat_len]
  split_ifs at hbody' ⊢ with hle
  · have hlen : e'.body.length = e.body.length + 18 := by
      rw [hbody', List.length_append, List.length_append, Vector.length_toList]
      rfl
    have hlen' : e.len + 18 = e'.len := by
      unfold Elem.len
      rw [hlen, UInt8.ofNat_add]
      rfl
    have h13 : (fixed ++ [e.id]).length = 13 := by
      rw [List.length_append, hfixed]
      rfl
    have hold : (fixed ++ encode [e] ++ [1, 0]) ++ (env.pmkidList iEntry).pmkid.toList =
        (fixed ++ [e.id]) ++ ([e.len] ++ e'.body) := by
      rw [hbody']
      simp [Elem.bytes]
    have hnew : (fixed ++ [e.id]) ++ ([e'.len] ++ e'.body) = fixed ++ encode [e'] := by
      rw [← hid']
      simp [Elem.bytes]
    have hbehind := holds_write_behind (holds_write_behind hmem [1, 0])
      (env.pmkidList iEntry).pmkid.toList
    rw [hold] at hbehind
    have hbyte := (Mem.holds_cons.mp (Mem.holds_append.mp hbehind).2).1
    rw [h13, zero_add, @List.length_append _ (fixed ++ encode [e])] at hbyte
    have hpatch := holds_write_between hbehind [e'.len] rfl
    rw [h13, hnew, @List.length_append _ (fixed ++ encode [e])] at hpatch
    refine ⟨?_, ?_⟩
    · dsimp only
      rw [← hlen', ← hbyte] at hpatch
      exact hpatch
    · simp only [List.length_append, encode_cons, encode_nil, Elem.length_bytes,
        List.length_nil, hlen]
      omega
  · obtain rfl : e' = e := by
      obtain ⟨id, body, hle⟩ := e
      obtain ⟨id', body', hle'⟩ := e'
      dsimp only at hid' hbody'
      subst hid' hbody'
      rfl
    exact ⟨hmem, rfl⟩

/-- What the security elements are made of : a list in `wps_ie`, and an RSN element that a PMKID can
be put behind if there is one. -/
structure SecurityOk (env : JoinEnv) (target : MacAddr) : Prop where
  wps : env.underWps → ∃ es, env.wpsIe = encode es
  rsn : env.Wpa2 → ∀ pmkid, env.cached target = some pmkid →
    env.underWps = false ∧ ∃ rsn, env.supplicantIe.body = Rsn.body rsn ∧ rsn.Regular

/-- Without a PMKID for WPA2 the list is the one that was copied. -/
theorem rtwRestructSecIe_of_none {target : MacAddr} (hs : env.Settles stack)
    (hno : env.Wpa2 → env.cached target = none) :
    env.rtwRestructSecIe stack target inIe outIe = env.copySecIe stack inIe outIe := by
  unfold rtwRestructSecIe
  dsimp only
  split
  · rfl
  · rename_i iEntry hentry
    have hnot : ¬env.authmode stack = wpa2IeId := by
      refine authmode_ne_wpa2 (fun h2 => ?_) hs
      have hnone := hno h2
      rw [cached, hentry] at hnone
      cases hnone
    rw [if_neg hnot]

theorem lists_start (hfixed : fixed.length = 12) (hin : inIe.read 0 12 = fixed) :
    Lists fixed [] (outIe.write 0 (inIe.read 0 12), 12) := by
  refine ⟨?_, ?_⟩
  · rw [hin, encode_nil, List.append_nil]
    exact Mem.read_write_self ..
  · rw [encode_nil, List.append_nil, hfixed]

theorem lists_behind_start {es : List Elem} (hfixed : fixed.length = 12)
    (hin : inIe.read 0 12 = fixed) :
    Lists fixed es ((outIe.write 0 (inIe.read 0 12)).write 12 (encode es),
      12 + (encode es).length) := by
  refine ⟨?_, ?_⟩
  · have hstart : (outIe.write 0 (inIe.read 0 12)).Holds 0 fixed := by
      rw [hin]
      exact Mem.read_write_self ..
    have hbehind := holds_write_behind hstart (encode es)
    rwa [hfixed] at hbehind
  · rw [List.length_append, hfixed]

/-- The element of the supplicant is copied in the modes with an id. -/
theorem copySecIe_supplicant (hfixed : fixed.length = 12) (hin : inIe.read 0 12 = fixed)
    (hwps : ¬env.underWps = true)
    (hmode : env.authmode stack = wpaIeId ∨ env.authmode stack = wpa2IeId) :
    Lists fixed [env.supplicantIe] (env.copySecIe stack inIe outIe) := by
  have hbehind := @lists_behind_start _ inIe outIe [env.supplicantIe] hfixed hin
  rw [encode_cons, encode_nil, List.append_nil] at hbehind
  unfold copySecIe
  rw [if_neg hwps, if_pos hmode]
  exact hbehind

/-- The security elements behind the fixed bytes. -/
theorem rtwRestructSecIe_lists {target : MacAddr} (h : env.SecurityOk target)
    (hfixed : fixed.length = 12)
    (hin : inIe.read 0 12 = fixed) : ∃ sec, env.SecurityElems target sec ∧
    ∀ stack outIe, env.Settles stack →
      Lists fixed sec (env.rtwRestructSecIe stack target inIe outIe) := by
  unfold SecurityElems
  by_cases hwps : env.underWps = true
  · obtain ⟨es, hes⟩ := h.wps hwps
    have hno : env.Wpa2 → env.cached target = none := by
      intro h2
      cases hc : env.cached target with
      | none => rfl
      | some pmkid => exact absurd hwps (by rw [(h.rsn h2 pmkid hc).1]; exact Bool.false_ne_true)
    refine ⟨es, by rw [if_pos hwps, hes], fun stack outIe hs => ?_⟩
    rw [rtwRestructSecIe_of_none hs hno, copySecIe, if_pos hwps, hes]
    exact lists_behind_start hfixed hin
  rw [exists_congr fun sec => and_congr_left' (iff_of_eq (if_neg hwps))]
  by_cases h2 : env.Wpa2
  · rw [exists_congr fun sec => and_congr_left' (iff_of_eq (if_pos h2))]
    cases hc : env.cached target with
    | none =>
      refine ⟨[env.supplicantIe], rfl, fun stack outIe hs => ?_⟩
      rw [rtwRestructSecIe_of_none hs fun _ => hc]
      exact copySecIe_supplicant hfixed hin hwps (Or.inr (authmode_wpa2 h2))
    | some pmkid =>
      obtain ⟨-, rsn, hbody, hrsn⟩ := h.rsn h2 pmkid hc
      obtain ⟨iEntry, hentry, hpmkid⟩ := Option.map_eq_some_iff.mp hc
      obtain ⟨e, hid, he⟩ := exists_withPmkid hbody hrsn pmkid
      refine ⟨[e], ⟨rsn, e, hbody, hrsn, rfl, hid, he⟩, fun stack outIe hs => ?_⟩
      unfold rtwRestructSecIe
      rw [hentry]
      dsimp only
      rw [if_pos (authmode_wpa2 h2)]
      rw [← hpmkid] at he
      exact rtwAppendPmkid_lists hfixed hbody hrsn hid he
        (copySecIe_supplicant hfixed hin hwps (Or.inr (authmode_wpa2 h2)))
  · rw [exists_congr fun sec => and_congr_left' (iff_of_eq (if_neg h2))]
    have hno : env.Wpa2 → env.cached target = none := fun h => absurd h h2
    by_cases hw : env.Wpa
    · refine ⟨[env.supplicantIe], by rw [if_pos hw], fun stack outIe hs => ?_⟩
      rw [rtwRestructSecIe_of_none hs hno]
      exact copySecIe_supplicant hfixed hin hwps (Or.inl (authmode_wpa h2 hw))
    · refine ⟨[], by rw [if_neg hw], fun stack outIe hs => ?_⟩
      have hnot : ¬(env.authmode stack = wpaIeId ∨ env.authmode stack = wpa2IeId) := by
        rw [authmode_other h2 hw]
        rcases hs with hs | hs | hs
        · exact absurd hs hw
        · exact absurd hs h2
        · exact not_or_intro hs.1 hs.2
      rw [rtwRestructSecIe_of_none hs hno, copySecIe, if_neg hwps, if_neg hnot]
      exact lists_start hfixed hin

end JoinEnv

/-! ## The WMM element -/

section Wmm

variable {inIe outIe : Mem} {inLen initialOutLen : ℕ} {t : Stream' UInt8}

/-- A vendor element is not completed to the OUI by what is behind it, and a WMM element has a
version. -/
def VendorOk (es : List Elem) : Prop :=
  ∀ e ∈ es, e.id = vendorSpecificIe → 4 ≤ e.body.length ∧ (wmmOui <+: e.body → 6 ≤ e.body.length)

/-- The comparison with an element that is not completed. -/
theorem wmm_match_iff {i : ℕ} {e : Elem} {es : List Elem}
    (h : bytesAt inIe i = encode (e :: es) ++ₛ t)
    (hlen : inLen = i + (encode (e :: es)).length)
    (hok : e.id = vendorSpecificIe → 4 ≤ e.body.length) :
    (inIe i = vendorSpecificIe ∧ inIe.read (i + 2) 4 = wmmOui ∧ i + 5 < inLen) ↔
      Own vendorSpecificIe wmmOui e = true := by
  have hread : e.id = vendorSpecificIe → (inIe.read (i + 2) 4 = wmmOui ↔ wmmOui <+: e.body) := by
    intro hid
    have hle := hok hid
    rw [body_of_bytesAt h, Stream'.append_append_stream, Stream'.take_append_of_le_length _ _ _ hle,
      List.prefix_iff_eq_take, eq_comm]
    rfl
  rw [id_of_bytesAt h, Own, Bool.and_eq_true, decide_eq_true_iff, List.isPrefixOf_iff_prefix]
  rw [encode_cons, List.length_append, Elem.length_bytes] at hlen
  constructor
  · rintro ⟨hid, hoff, -⟩
    exact ⟨hid, (hread hid).mp hoff⟩
  · rintro ⟨hid, hpre⟩
    have hle := hok hid
    exact ⟨hid, (hread hid).mpr hpre, by omega⟩

/-- What is written for the element at `i`. -/
def writeWmm (inIe outIe : Mem) (initialOutLen i : ℕ) : Mem :=
  (((outIe.write initialOutLen (inIe.read i 9)).write (initialOutLen + 1) [0x07]).write
    (initialOutLen + 6) [0x00]).write (initialOutLen + 8) [0x00]

/-- The loop stops at the first WMM element. -/
theorem restructWmmLoop_cases :
    ∀ {es : List Elem} {fuel i ielength : ℕ}, bytesAt inIe i = encode es ++ₛ t →
    inLen = i + (encode es).length → inLen ≤ i + fuel →
      (∀ e ∈ es, e.id = vendorSpecificIe → 4 ≤ e.body.length) →
      (es.find? (Own vendorSpecificIe wmmOui) = none ∧
        restructWmmLoop inIe inLen outIe initialOutLen fuel i ielength =
          (outIe, if es = [] then ielength else initialOutLen)) ∨
      ∃ e j post t', es.find? (Own vendorSpecificIe wmmOui) = some e ∧
        bytesAt inIe (j : ℕ) = encode (e :: post) ++ₛ t' ∧
        restructWmmLoop inIe inLen outIe initialOutLen fuel i ielength =
          (writeWmm inIe outIe initialOutLen j, initialOutLen + 9)
  | [], fuel, i, ielength, h, hlen, _, _ => by
    have hnot : ¬i < inLen := by
      rw [hlen, encode_nil, List.length_nil]
      omega
    refine Or.inl ⟨rfl, ?_⟩
    cases fuel with
    | zero => rfl
    | succ fuel =>
      rw [restructWmmLoop, if_neg hnot]
      rfl
  | e :: es, fuel, i, ielength, h, hlen, hfuel, hok => by
    have hlen' := hlen
    rw [encode_cons, List.length_append, Elem.length_bytes] at hlen'
    obtain ⟨fuel, rfl⟩ : ∃ k, fuel = k + 1 := ⟨fuel - 1, by omega⟩
    obtain ⟨he, hes⟩ := List.forall_mem_cons.mp hok
    rw [restructWmmLoop, if_pos (by omega), if_congr (wmm_match_iff h hlen he) rfl rfl]
    by_cases hown : Own vendorSpecificIe wmmOui e = true
    · rw [if_pos hown]
      exact Or.inr ⟨e, i, es, t, List.find?_cons_of_pos hown, h, rfl⟩
    · have hnext := next_of_bytesAt h
      rw [← Nat.cast_add] at hnext
      rw [if_neg hown, len_of_bytesAt h, List.find?_cons_of_neg hown,
        if_neg (List.cons_ne_nil e es)]
      rcases @restructWmmLoop_cases es fuel _ initialOutLen hnext (by omega)
        (by omega) hes with ⟨hfind, hloop⟩ | hhit
      · exact Or.inl ⟨hfind, by rw [hloop, ite_self]⟩
      · exact Or.inr hhit

/-- The nine bytes of a WMM element that are copied. -/
theorem read_wmm {j : ℕ} {e : Elem} {post : List Elem}
    (hbytes : bytesAt inIe j = encode (e :: post) ++ₛ t)
    (hown : Own vendorSpecificIe wmmOui e = true) (hlen : 6 ≤ e.body.length) :
    ∃ subtype x, inIe.read j 9 =
      [vendorSpecificIe, e.len] ++ wmmOui ++ [subtype, e.body.getD 5 0, x] := by
  rw [Own, Bool.and_eq_true, decide_eq_true_iff, List.isPrefixOf_iff_prefix] at hown
  obtain ⟨hid, rest, hbody⟩ := hown
  rw [← hbody, List.length_append] at hlen
  obtain ⟨a, b, rest, rfl⟩ : ∃ a b r, rest = a :: b :: r := by
    rcases rest with _ | ⟨a, _ | ⟨b, r⟩⟩
    · simp [wmmOui] at hlen
    · simp [wmmOui] at hlen
    · exact ⟨a, b, r, rfl⟩
  have hsplit : encode
    (e :: post) = ([vendorSpecificIe, e.len] ++ wmmOui ++ [a, b]) ++ (rest ++ encode post) := by
    rw [encode_cons, Elem.bytes, ← hbody, hid]
    rfl
  rw [hsplit, Stream'.append_append_stream] at hbytes
  have hread : inIe.read j 8 = [vendorSpecificIe, e.len] ++ wmmOui ++ [a, b] :=
    read_of_bytesAt hbytes
  have hb : e.body.getD 5 0 = b := by rw [← hbody]; rfl
  refine ⟨a, inIe (j + 8), ?_⟩
  rw [Mem.read_add inIe 1 8, hread, hb]
  rfl

/-- The element that is written. -/
theorem writeWmm_holds {bs : List UInt8} {j : ℕ} {e : Elem} {post : List Elem}
    (h : outIe.Holds 0 bs)
    (hbytes : bytesAt inIe j = encode (e :: post) ++ₛ t)
    (hown : Own vendorSpecificIe wmmOui e = true)
    (hlen : 6 ≤ e.body.length) :
    (writeWmm inIe outIe bs.length j).Holds 0 (bs ++ (wmmInfo (e.body.getD 5 0)).bytes) := by
  obtain ⟨subtype, x, hread⟩ := read_wmm hbytes hown hlen
  generalize e.body.getD 5 0 = version at hread ⊢
  have hlast (k : ℕ) (xs : List UInt8) (hk : xs.length = k) :
    ((bs ++ xs).length : ℤ) = bs.length + k := by
    rw [List.length_append, hk, Nat.cast_add]
  have hcopy := holds_write_behind h (inIe.read j 9)
  rw [hread] at hcopy
  have h1 : (bs ++ [vendorSpecificIe]) ++ ([e.len] ++ (wmmOui ++ [subtype, version, x])) =
      bs ++ ([vendorSpecificIe, e.len] ++ wmmOui ++ [subtype, version, x]) := by simp
  rw [← h1] at hcopy
  have hlen1 := holds_write_between hcopy [0x07] rfl
  have h6 : (bs ++ ([vendorSpecificIe, 0x07] ++ wmmOui)) ++ ([subtype] ++ [version, x]) =
      (bs ++ [vendorSpecificIe]) ++ ([0x07] ++ (wmmOui ++ [subtype, version, x])) := by simp
  rw [← h6] at hlen1
  have hlen6 := holds_write_between hlen1 [0x00] rfl
  have h8 : (bs ++ ([vendorSpecificIe, 0x07] ++ wmmOui ++ [0x00, version])) ++ ([x] ++ []) =
      (bs ++ ([vendorSpecificIe, 0x07] ++ wmmOui)) ++ ([0x00] ++ [version, x]) := by simp
  rw [← h8] at hlen6
  have hlen8 := holds_write_between hlen6 [0x00] rfl
  have hfinal : (bs ++ ([vendorSpecificIe, 0x07] ++ wmmOui ++ [0x00, version])) ++ ([0x00] ++ []) =
      bs ++ (wmmInfo version).bytes := by
    rw [List.append_assoc]
    rfl
  rw [hfinal, hlast 1 _ rfl, hlast 6 _ rfl, hlast 8 _ rfl] at hlen8
  rw [← hread] at hlen8
  exact hlen8

end Wmm

namespace JoinEnv

section Join

variable {env : JoinEnv} {fixed : List UInt8} {inIe outIe : Mem} {inLen n : ℕ} {t : Stream' UInt8}
  {es sec : List Elem}

/-- The WMM element is put behind the list, if the network announces one. -/
theorem rtwRestructWmmIe_lists (h : Lists fixed sec (outIe, n))
    (hin : bytesAt inIe (12 : ℕ) = encode es ++ₛ t)
    (hlen : inLen = 12 + (encode es).length) (hne : es ≠ []) (hok : VendorOk es) :
    Lists fixed (sec ++ (announcedWmm es).toList.map fun e => wmmInfo (e.body.getD 5 0))
      (rtwRestructWmmIe inIe outIe inLen n) ∧
    ((rtwRestructWmmIe inIe outIe inLen n).2 = n ↔ announcedWmm es = none) := by
  obtain ⟨hmem, rfl⟩ : outIe.Holds 0 (fixed ++ encode sec) ∧ n = (fixed ++ encode sec).length := h
  unfold rtwRestructWmmIe announcedWmm
  rcases @restructWmmLoop_cases inIe outIe inLen (fixed ++ encode sec).length t es inLen 12 0 hin
    hlen (by omega)
    (fun e he hid => (hok e he hid).1) with ⟨hfind, hloop⟩ | ⟨e, j, post, t', hfind, hbytes, hloop⟩
  · rw [hloop, if_neg hne, hfind]
    refine ⟨?_, iff_of_true rfl rfl⟩
    rw [Option.toList_none, List.map_nil, List.append_nil]
    exact ⟨hmem, rfl⟩
  · have hown := List.find?_some hfind
    obtain ⟨hid, hpre⟩ : e.id = vendorSpecificIe ∧ wmmOui <+: e.body := by
      rwa [Own, Bool.and_eq_true, decide_eq_true_iff, List.isPrefixOf_iff_prefix] at hown
    have hsix := (hok e (List.mem_of_find?_eq_some hfind) hid).2 hpre
    rw [hloop, hfind]
    refine ⟨⟨?_, ?_⟩, iff_of_false (by omega) (Option.some_ne_none e)⟩
    · rw [encode_append, ← List.append_assoc]
      have hwritten := writeWmm_holds hmem hbytes hown hsix
      rw [← List.append_nil (wmmInfo _).bytes] at hwritten
      exact hwritten
    · rw [encode_append, ← List.append_assoc, @List.length_append _ (fixed ++ encode sec)]
      rfl

/-- An element is put behind the list. -/
theorem lists_setIe {b : Built} (h : Lists fixed es (b.ies, b.len)) (e : Elem) :
    Lists fixed (es ++ [e]) ((b.setIe e.id e.body).ies, (b.setIe e.id e.body).len) := by
  obtain ⟨hmem, hlen⟩ : b.ies.Holds 0 (fixed ++ encode es) ∧ b.len = (fixed ++ encode es).length :=
    h
  have hsplit : fixed ++ encode (es ++ [e]) = (fixed ++ encode es) ++ e.bytes := by
    rw [encode_append, encode_cons, encode_nil, List.append_nil, List.append_assoc]
  refine ⟨?_, ?_⟩
  · rw [hsplit]
    have hbehind := holds_write_behind hmem e.bytes
    rw [← hlen] at hbehind
    exact hbehind
  · rw [hsplit, List.length_append, Elem.length_bytes, ← hlen]
    rfl

/-- The WMM element that HT needs is put behind the list. -/
theorem lists_needWmm {b : Built} (h : Lists fixed es (b.ies, b.len)) :
    let b' : Built := if b.qos then b else { b.setIe vendorSpecificIe wmmIe with qos := true }
    Lists fixed (es ++ if b.qos then [] else [wmmInfo 1]) (b'.ies, b'.len) := by
  dsimp only
  split_ifs
  · rw [List.append_nil]
    exact h
  · exact lists_setIe h (wmmInfo 1)

/-- The WMM element of the network is put behind the list. -/
theorem joinWmm_lists (h : Lists fixed sec (outIe, n))
    (hin : bytesAt inIe (12 : ℕ) = encode es ++ₛ t)
    (hlen : inLen = 12 + (encode es).length) (hok : env.wmmEnable → es ≠ [] ∧ VendorOk es) :
    let b := env.joinWmm inIe inLen outIe n
    Lists fixed (sec ++ env.wmmElems es) (b.ies, b.len) ∧
      (b.qos = true ↔ env.wmmElems es ≠ []) := by
  dsimp only
  unfold joinWmm wmmElems
  by_cases hwmm : env.wmmEnable = true
  · obtain ⟨hlists, hiff⟩ := rtwRestructWmmIe_lists h hin hlen (hok hwmm).1 (hok hwmm).2
    rw [if_pos hwmm, if_pos hwmm]
    dsimp only
    cases ha : announcedWmm es with
    | none =>
      have hsame := hiff.mpr ha
      rw [ha] at hlists
      rw [if_neg (not_not_intro hsame.symm)]
      exact ⟨⟨hlists.1, hsame.symm.trans hlists.2⟩, by simp⟩
    | some e =>
      have hother : (rtwRestructWmmIe inIe outIe inLen n).2 ≠ n := fun h => by
        have hnone := hiff.mp h
        rw [ha] at hnone
        cases hnone
      rw [ha] at hlists
      rw [if_pos hother.symm]
      exact ⟨hlists, by simp⟩
  · rw [if_neg hwmm, if_neg hwmm, List.append_nil]
    exact ⟨h, by simp⟩

/-- The HT elements are put behind the list, if the network announces HT. -/
theorem rtwRestructureHtIe_lists {b : Built} (h : Lists fixed sec (b.ies, b.len))
    (hin : bytesAt inIe 12 = encode es ++ₛ t) (hlen : inLen = 12 + (encode es).length) :
    Lists fixed (sec ++ if AnnouncesHt es then (if b.qos then [] else [wmmInfo 1]) ++ env.htCap ::
        ((es.find? fun e => decide (e.id = htExtraInfoIe)).toList.filter
        fun e => e.body.length = htAddtInfoSz) else [])
      ((env.rtwRestructureHtIe inIe inLen b).ies, (env.rtwRestructureHtIe inIe inLen b).len) := by
  have hlimit : (inLen : ℤ) - 12 = (encode es).length := by omega
  unfold rtwRestructureHtIe
  rw [hlimit]
  rcases rtwGetIe_cases hin htCapabilityIe with ⟨hfind, hget⟩ | ⟨c, q, hfind, hget, -⟩
  · have hno : ¬AnnouncesHt es := by
      rintro ⟨e, he, -⟩
      rw [hfind] at he
      cases he
    rw [hget, if_neg hno, List.append_nil]
    exact h
  have hannounces : AnnouncesHt es ↔ 0 < c.body.length := by
    unfold AnnouncesHt
    rw [hfind, List.length_pos_iff]
    simp
  rw [hget]
  dsimp only
  by_cases hbody : 0 < c.body.length
  swap
  · rw [if_neg hbody, if_neg fun h => hbody (hannounces.mp h), List.append_nil]
    exact h
  rw [if_pos hbody, if_pos (hannounces.mpr hbody)]
  -- the capabilities are behind a WMM element
  have hcap := lists_setIe (lists_needWmm h) env.htCap
  rw [List.append_assoc] at hcap
  rcases rtwGetIe_cases hin htExtraInfoIe with ⟨hfind', hget'⟩ | ⟨a, q', hfind', hget', hread⟩
  · rw [hfind', hget']
    exact hcap
  · rw [hfind', hget']
    dsimp only
    by_cases hsz : a.body.length = htAddtInfoSz
    · have hid : a.id = htExtraInfoIe := by simpa using List.find?_some hfind'
      have hinfo := lists_setIe hcap a
      have hkept : (some a).toList.filter (fun e => decide (e.body.length = htAddtInfoSz)) =
        [a] := by simp [hsz]
      rw [if_pos hsz, hread, ← hid, hkept]
      rw [List.append_assoc, List.append_assoc] at hinfo
      exact hinfo
    · have hdropped : (some a).toList.filter (fun e => decide (e.body.length = htAddtInfoSz)) =
        [] := by simp [hsz]
      rw [if_neg hsz, hdropped]
      exact hcap

/-- The HT elements are put behind the list that has the WMM element. -/
theorem joinHt_lists {b : Built} (h : Lists fixed (sec ++ env.wmmElems es) (b.ies, b.len))
    (hqos : b.qos = true ↔ env.wmmElems es ≠ []) (hin : bytesAt inIe 12 = encode es ++ₛ t)
    (hlen : inLen = 12 + (encode es).length) :
    Lists fixed (sec ++ env.wmmElems es ++ env.htElems es) ((env.joinHt inIe inLen b).ies,
      (env.joinHt inIe inLen b).len) := by
  unfold joinHt htElems
  by_cases hht : env.UsesHt
  · have huses := hht
    unfold UsesHt at huses
    have hneed : (if b.qos then [] else [wmmInfo 1]) = if env.wmmElems es =
      [] then [wmmInfo 1] else [] := by
      by_cases hnil : env.wmmElems es = []
      · rw [if_pos hnil, if_neg fun h => hqos.mp h hnil]
      · rw [if_neg hnil, if_pos (hqos.mpr hnil)]
    have hbehind := env.rtwRestructureHtIe_lists h hin hlen
    rw [hneed] at hbehind
    rw [if_pos huses, if_congr (and_iff_right hht) rfl rfl]
    exact hbehind
  · have huses := hht
    unfold UsesHt at huses
    rw [if_neg huses, if_neg fun h => hht h.1, List.append_nil]
    exact h

end Join

/-- The fixed bytes and the elements of a network. -/
structure Network (net : JoinBss) where
  fixed : List UInt8
  elems : List Elem
  length_fixed : fixed.length = 12
  length_eq : net.ieLength = 12 + (encode elems).length
  read_eq : net.ies.read 0 net.ieLength = fixed ++ encode elems

namespace Network

variable {net : JoinBss} (l : Network net)

theorem bytesAt_ies : bytesAt net.ies 0 = l.fixed ++ₛ (encode l.elems ++ₛ
    bytesAt net.ies (0 + (l.fixed ++ encode l.elems).length)) := by
  rw [← Stream'.append_append_stream]
  refine bytesAt_of_read ?_
  rw [List.length_append, l.length_fixed, ← l.length_eq]
  exact l.read_eq

/-- The elements are behind the fixed bytes. -/
theorem bytesAt_elems : bytesAt net.ies 12 = encode l.elems ++ₛ
    bytesAt net.ies (0 + (l.fixed ++ encode l.elems).length) := by
  have hin := bytesAt_drop l.bytesAt_ies
  rwa [l.length_fixed, zero_add] at hin

theorem read_fixed : net.ies.read 0 12 = l.fixed := by
  have hstart := read_of_bytesAt l.bytesAt_ies
  rwa [l.length_fixed] at hstart

end Network

/-- The elements of the network, as `rtw_restruct_wmm_ie` takes them. -/
def WmmOk (env : JoinEnv) (es : List Elem) : Prop := env.wmmEnable → es ≠ [] ∧ VendorOk es

/-- The list is the fixed bytes of the network, the security elements, the WMM element of the
network and the HT elements, whatever is on the stack. -/
theorem joinbssCmd_elements (env : JoinEnv) (net : JoinBss) (l : Network net) (hsec : env.SecurityOk (env.target net))
    (hwmm : env.WmmOk l.elems) : ∃ sec, env.SecurityElems (env.target net) sec ∧ ∀ stack, env.Settles stack →
      Lists l.fixed (sec ++ env.wmmElems l.elems ++ env.htElems l.elems)
        ((env.joinbssCmd stack net).ies, (env.joinbssCmd stack net).len) := by
  obtain ⟨sec, hsecElems, hlists⟩ := rtwRestructSecIe_lists hsec l.length_fixed l.read_fixed
  refine ⟨sec, hsecElems, fun stack hs => ?_⟩
  have hstart := hlists stack (Mem.write (fun _ => 0) 0 (net.ies.read 0 net.ieLength)) hs
  obtain ⟨hbefore, hqos⟩ := joinWmm_lists hstart l.bytesAt_elems l.length_eq hwmm
  exact joinHt_lists hbefore hqos l.bytesAt_elems l.length_eq

/-! ## An access point with HT and without WMM -/

/-- An HT capability element. -/
def sampleHt : Elem := ⟨htCapabilityIe, List.replicate 26 0, by change 26 ≤ 255; decide⟩

/-- The network. -/
def sampleBss : JoinBss where
  macAddress := zeroAddr
  ies := Mem.write (fun _ => 0) 12 (encode [sampleHt])
  ieLength := 40

def sampleNetwork : Network sampleBss where
  fixed := List.replicate 12 0
  elems := [sampleHt]
  length_fixed := List.length_replicate
  length_eq := rfl
  read_eq := by decide

/-- An RSN element without PMKIDs. -/
def sampleRsn : Rsn := ⟨#v[1, 0], #v[0, 0x0f, 0xac, 4], [#v[0, 0x0f, 0xac, 4]], [#v[0, 0x0f, 0xac, 2]], some (#v[0, 0], none)⟩

/-- A station with the PMKID of the network. -/
def sampleEnv : JoinEnv where
  ndisauthtype := ndis80211AuthModeWPA2PSK
  dot11PrivacyAlgrthm := .aes
  underWps := false
  wpsIe := []
  supplicantIe := ⟨wpa2IeId, sampleRsn.body, by decide⟩
  pmkidList := fun _ => ⟨true, zeroAddr, Vector.replicate 16 7⟩
  assocByBssid := false
  assocBssid := zeroAddr
  wmmEnable := true
  htEnable := true

theorem joinbssCmd_elements_sample : ∃ sec, sampleEnv.SecurityElems (sampleEnv.target sampleBss) sec ∧
    ∀ stack, sampleEnv.Settles stack → Lists sampleNetwork.fixed
      (sec ++ sampleEnv.wmmElems sampleNetwork.elems ++ sampleEnv.htElems sampleNetwork.elems)
        ((sampleEnv.joinbssCmd stack sampleBss).ies, (sampleEnv.joinbssCmd stack sampleBss).len) := by
  refine joinbssCmd_elements sampleEnv sampleBss sampleNetwork ⟨?_, ?_⟩ ?_
  · exact fun h => absurd h (by decide)
  · exact fun _ pmkid _ => ⟨rfl, sampleRsn, rfl, Or.inl ⟨rfl, rfl, #v[0, 0], rfl⟩⟩
  · refine fun _ => ⟨List.cons_ne_nil _ _, fun e he hid => ?_⟩
    obtain rfl := List.mem_singleton.mp he
    exact absurd hid (by decide)

/-- The station puts a WMM element into the list though the network has none. -/
theorem not_wmm_as_announced : ¬∀ (env : JoinEnv) (net : JoinBss) (l : Network net) (stack : UInt8) (es : List Elem),
    Lists l.fixed es ((env.joinbssCmd stack net).ies, (env.joinbssCmd stack net).len) →
      ((∃ e ∈ es, Own vendorSpecificIe wmmOui e = true) ↔ ∃ e ∈ l.elems, Own vendorSpecificIe wmmOui e = true) := by
  intro hall
  have hlists : Lists sampleNetwork.fixed
    [⟨wpa2IeId, (sampleRsn.withPmkid (Vector.replicate 16 7)).body, by decide⟩,
      wmmInfo 1, sampleEnv.htCap]
      ((sampleEnv.joinbssCmd 0 sampleBss).ies, (sampleEnv.joinbssCmd 0 sampleBss).len) := by
    constructor
    · unfold Mem.Holds
      decide +kernel
    · decide +kernel
  obtain ⟨e, he, hown⟩ :=
    (hall sampleEnv sampleBss sampleNetwork 0 _ hlists).mp ⟨wmmInfo 1, by simp, by decide⟩
  obtain rfl := List.mem_singleton.mp he
  revert hown
  decide

end JoinEnv

end Rtl8188eu
