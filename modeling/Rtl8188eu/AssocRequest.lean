import Rtl8188eu.JoinElements
import Rtl8188eu.ReceivedRates

/-!
# The association request

`issue_assocreq` takes the SSID and the common rates from the network, and the RSN, HT, WPA, WMM and
WPS elements from its element list. The loop over the vendor elements writes 14 into the length byte
of a WPS element before it copies the element, and goes on by the length byte.

`issueAssocreq_frame` : the frame has the elements that it should have, up to the first WPS element
that is cut, and if there is none the list stays as it is.
-/

namespace Rtl8188eu

open Tlv

/-! ## The functions of the source -/

/-- `RTW_WPA_OUI`. -/
def rtwWpaOui : List UInt8 := [0x00, 0x50, 0xf2, 0x01]
/-- `REALTEK_96B_IE`. -/
def realtek96bIe : List UInt8 := [0x00, 0xe0, 0x4c, 0x02, 0x01, 0x20]
/-- `WPA_TKIP_CIPHER`. -/
def wpaTkipCipher : List UInt8 := [0x00, 0x50, 0xf2, 0x02]
/-- `RSN_TKIP_CIPHER`. -/
def rsnTkipCipher : List UInt8 := [0x00, 0x0f, 0xac, 0x02]
/-- `MCS_rate_1R`. -/
def mcsRate1R : List UInt8 := [0xff, 0x00, 0x0, 0x0, 0x01] ++ List.replicate 11 0
/-- `MCS_rate_2R`. -/
def mcsRate2R : List UInt8 := [0xff, 0xff, 0x0, 0x0, 0x01] ++ List.replicate 11 0

/-- What `issue_assocreq` reads of the device. -/
structure AssocEnv where
  /-- `myid`. -/
  macAddr : MacAddr
  mgntSeq : ℕ
  ssid : List UInt8
  /-- `Ssid` has 32 bytes. -/
  ssid_le : ssid.length ≤ 32
  rates : JoinRates
  htOption : Bool
  cbw40Enable : Bool
  rxStbc : ℕ
  wifiSpec : ℕ
  /-- `rf_type` is `RF_1T1R`. -/
  rf1t1r : Bool
  /-- `cur_wireless_mode & WIRELESS_11_24N`. -/
  wireless24N : Bool
  assocApVendor : HtIotPeer
  p2pState : P2pState
  persistentSupported : Bool
  /-- `ui_got_wps_info` is one of the two with a PIN on a display. -/
  displayPin : Bool
  deviceName : List UInt8
  /-- `device_name` has 32 bytes. -/
  deviceName_le : deviceName.length ≤ 32
  deviceAddr : MacAddr
  /-- The memory from `HT_caps` on. -/
  htCaps : Mem

/-- `rtw_set_ie` behind a frame. -/
def pushIe (f : List UInt8) (index : UInt8) (source : List UInt8) : List UInt8 :=
  f ++ index :: UInt8.ofNat source.length :: source

/-- The loop of `is_ap_in_tkip`. -/
def apInTkipLoop (ies : Mem) (ieLength : ℕ) : ℕ → ℕ → Bool
  | 0, _ => false
  | fuel + 1, i =>
    if i < ieLength then
      if ies i = vendorSpecificIe ∧ ies.read (i + 2) 4 = rtwWpaOui ∧ ies.read (i + 2 + 12) 4 = wpaTkipCipher then true
      else if ies i = wpa2IeId ∧ ies.read (i + 2 + 8) 4 = rsnTkipCipher then true
      else apInTkipLoop ies ieLength fuel (i + ((ies (i + 1)).toNat + 2))
    else false

/-- `is_ap_in_tkip`. -/
def isApInTkip (ies : Mem) (ieLength : ℕ) : Bool :=
  ies 10 &&& 0x10 ≠ 0 && apInTkipLoop ies ieLength ieLength 12

namespace AssocEnv

variable (env : AssocEnv)

/-- The channel width and the power save mode in `HT_caps_info`. -/
def setWidth (m : Mem) : Mem :=
  let m := if env.cbw40Enable then m.write 0 [m 0 ||| 0x02] else m.write 0 [m 0 &&& 0xbd]
  m.write 0 [m 0 ||| 0x0c]

/-- The streams in `HT_caps_info`, and `MCS_rate`. -/
def setStreams (m : Mem) : Mem :=
  if env.rf1t1r then
    let m := if env.rxStbc ≠ 0 then m.write 1 [m 1 ||| 0x01] else m
    m.write 3 mcsRate1R
  else
    let m := if env.rxStbc = 3 ∨ env.wireless24N ∧ env.rxStbc = 1 ∨ env.wifiSpec = 1 then m.write 1 [m 1 ||| 0x02]
      else m
    m.write 3 mcsRate2R

/-- The HT capabilities of the network as those of the station, in the memory from `HT_caps` on. -/
def setHtCaps (caps : List UInt8) : Mem := env.setStreams (env.setWidth (env.htCaps.write 0 caps))

/-- The loop over the vendor elements : the list of the network, which is changed, and the frame. -/
def vendorLoop (ieLength : ℕ) : ℕ → ℕ → Mem → List UInt8 → Mem × List UInt8
  | 0, _, ies, f => (ies, f)
  | fuel + 1, i, ies, f =>
    if i < ieLength then
      let (ies, f) :=
        if ies i = vendorSpecificIe ∧ (ies.read (i + 2) 4 = rtwWpaOui ∨ ies.read (i + 2) 4 = wmmOui ∨
            ies.read (i + 2) 4 = wpsOui) then
          let ies := if env.wifiSpec = 0 ∧ ies.read (i + 2) 4 = wpsOui then ies.write (i + 1) [14] else ies
          (ies, pushIe f vendorSpecificIe (ies.read (i + 2) (ies (i + 1)).toNat))
        else (ies, f)
      vendorLoop ieLength fuel (i + ((ies (i + 1)).toNat + 2)) ies f
    else (ies, f)

/-- `p2pie`. -/
def p2pie : List UInt8 :=
  p2pOui ++ [0x02] ++ le16Bytes 2 ++ [0x27, if env.persistentSupported then 0x0a else 0x08] ++
    [0x08] ++ le16Bytes 4 ++ [0xff, 0xff, 0xff, 0xff] ++
    [0x0d] ++ le16Bytes (21 + env.deviceName.length) ++ env.macAddr.toList ++
    be16Bytes (if env.displayPin then 0x0008 else 0x0080) ++ be16Bytes 0x0008 ++ [0x00, 0x50, 0xf2, 0x04] ++
    be16Bytes 0x0005 ++ [0x00] ++ be16Bytes 0x1011 ++ be16Bytes env.deviceName.length ++ env.deviceName ++
    [0x10] ++ le16Bytes 13 ++ env.deviceAddr.toList ++ [1] ++ env.deviceAddr.toList

/-- The frame up to the elements : the header, the capabilities and the listen interval. -/
def start (net : JoinBss) : List UInt8 :=
  [0, 0, 0, 0] ++ net.macAddress.toList ++ env.macAddr.toList ++ net.macAddress.toList ++
    le16Bytes (0xfff0 &&& env.mgntSeq * 16) ++ net.ies.read 10 2 ++ le16Bytes 3

/-- The rates in the frame. -/
def pushRates (f : List UInt8) : List UInt8 :=
  let bssrate := env.rates.input.bssrate
  if 8 < bssrate.length then
    pushIe (pushIe f supportedratesIe (bssrate.take 8)) extSupportedratesIe (bssrate.drop 8)
  else pushIe f supportedratesIe bssrate

/-- The RSN element in the frame. -/
def pushRsn (net : JoinBss) (f : List UInt8) : List UInt8 :=
  match rtwGetIe net.ies 12 wpa2IeId (net.ieLength - 12) with
  | none => f
  | some (p, ieLen) => pushIe f wpa2IeId (net.ies.read (p + 2) ieLen)

/-- The HT capability element in the frame. -/
def pushHt (net : JoinBss) (f : List UInt8) : List UInt8 :=
  if env.htOption then
    match rtwGetIe net.ies 12 htCapabilityIe (net.ieLength - 12) with
    | none => f
    | some (p, ieLen) =>
      if isApInTkip net.ies net.ieLength then f
      else pushIe f htCapabilityIe ((env.setHtCaps (net.ies.read (p + 2) 26)).read 0 ieLen)
  else f

/-- What is behind the elements of the network. -/
def pushOwn (f : List UInt8) : List UInt8 :=
  let f := if env.assocApVendor = .realtek then pushIe f vendorSpecificIe realtek96bIe else f
  if env.p2pState ≠ .none ∧ env.p2pState ≠ .idle then pushIe f vendorSpecificIe env.p2pie else f

/-- `issue_assocreq` : the list of the network behind it, and the frame. There is none without a
common rate. -/
def issueAssocreq (net : JoinBss) : Option (Mem × List UInt8) :=
  if env.rates.input.bssrate.length = 0 then none
  else
    let f := env.pushHt net (pushRsn net (env.pushRates (pushIe (env.start net) ssidIe env.ssid)))
    let (ies, f) := env.vendorLoop net.ieLength net.ieLength 12 net.ies f
    some (ies, env.pushOwn f)

end AssocEnv

/-! ## The vendor elements -/

/-- The element is one that the loop copies. -/
def Wanted (e : Elem) : Bool :=
  Own vendorSpecificIe rtwWpaOui e || Own vendorSpecificIe wmmOui e || Own vendorSpecificIe wpsOui e

/-- The first 14 bytes of a body. -/
def cutElem (e : Elem) : Elem where
  id := vendorSpecificIe
  body := e.body.take 14
  length_le := (List.length_take_le ..).trans (by decide)

/-- The OUI and the WPS attributes that are kept are there. -/
structure VendorLong (wifiSpec : ℕ) (e : Elem) : Prop where
  oui : e.id = vendorSpecificIe → 4 ≤ e.body.length
  wps : wifiSpec = 0 → Own vendorSpecificIe wpsOui e = true → 14 ≤ e.body.length

namespace AssocEnv

variable {env : AssocEnv}

/-- The element is a WPS element that gets another length. -/
def IsCut (env : AssocEnv) (e : Elem) : Bool :=
  decide (env.wifiSpec = 0) && Own vendorSpecificIe wpsOui e && decide (e.body.length ≠ 14)

/-- The WPA, WMM and WPS elements, up to the first one that is cut. -/
def vendorElems (env : AssocEnv) : List Elem → List Elem
  | [] => []
  | e :: es =>
    if env.IsCut e then [cutElem e] else if Wanted e then e :: env.vendorElems es else env.vendorElems es

theorem vendorElems_eq_filter : ∀ {es : List Elem}, (∀ e ∈ es, env.IsCut e = false) →
    env.vendorElems es = es.filter Wanted
  | [], _ => rfl
  | e :: es, h => by
    obtain ⟨he, hes⟩ := List.forall_mem_cons.mp h
    rw [vendorElems, he, if_neg Bool.false_ne_true, vendorElems_eq_filter hes, List.filter_cons]

theorem pushIe_elem (f : List UInt8) (e : Elem) : pushIe f e.id e.body = f ++ e.bytes := rfl

/-- Whatever is in the list, the loop puts whole elements behind the frame. -/
theorem vendorLoop_whole {ieLength : ℕ} : ∀ (fuel i : ℕ) (ies : Mem) (f : List UInt8),
    ∃ more, (env.vendorLoop ieLength fuel i ies f).2 = f ++ encode more
  | 0, _, _, f => ⟨[], by rw [encode_nil, List.append_nil]; rfl⟩
  | fuel + 1, i, ies, f => by
    unfold vendorLoop
    split
    · dsimp only
      split
      · generalize (if env.wifiSpec = 0 ∧
          ies.read (i + 2) 4 = wpsOui then ies.write (i + 1) [14] else ies) = ies'
        obtain ⟨more, hmore⟩ := vendorLoop_whole fuel (i + ((ies' (i + 1)).toNat + 2)) ies'
          (pushIe f vendorSpecificIe (ies'.read (i + 2) (ies' (i + 1)).toNat))
        have hbyte := (ies' (i + 1)).toNat_lt
        refine ⟨⟨vendorSpecificIe, ies'.read (i + 2) (ies' (i + 1)).toNat,
          by rw [Mem.length_read]; omega⟩ :: more, ?_⟩
        rw [hmore, encode_cons, ← List.append_assoc]
        rfl
      · exact vendorLoop_whole fuel _ ies f
    · exact ⟨[], by rw [encode_nil, List.append_nil]⟩

/-- The comparison with a whole body. -/
theorem read_oui_iff {ies : Mem} {i : ℕ} {e : Elem} {es : List Elem} {t : Stream' UInt8}
    {o : List UInt8}
    (h : bytesAt ies i = encode (e :: es) ++ₛ t) (ho : o.length = 4)
    (hlen : e.id = vendorSpecificIe → 4 ≤ e.body.length)
    (hid : ies i = vendorSpecificIe) : ies.read (i + 2) 4 = o ↔
    Own vendorSpecificIe o e = true := by
  have hid' := (id_of_bytesAt h).symm.trans hid
  rw [Own, Bool.and_eq_true, decide_eq_true_iff, List.isPrefixOf_iff_prefix, and_iff_right hid',
    body_of_bytesAt h,
    Stream'.append_append_stream, Stream'.take_append_of_le_length _ _ _ (hlen hid'),
    List.prefix_iff_eq_take, ho, eq_comm]

/-- The comparison of the loop. -/
theorem wanted_iff {ies : Mem} {i : ℕ} {e : Elem} {es : List Elem} {t : Stream' UInt8}
    (h : bytesAt ies i = encode (e :: es) ++ₛ t)
    (hlen : e.id = vendorSpecificIe → 4 ≤ e.body.length) :
    (ies i = vendorSpecificIe ∧ (ies.read (i + 2) 4 = rtwWpaOui ∨ ies.read (i + 2) 4 = wmmOui ∨
      ies.read (i + 2) 4 = wpsOui)) ↔ Wanted e = true := by
  unfold Wanted
  rw [Bool.or_eq_true, Bool.or_eq_true]
  by_cases hid : ies i = vendorSpecificIe
  · rw [and_iff_right hid, read_oui_iff h rfl hlen hid, read_oui_iff h rfl hlen hid,
      read_oui_iff h rfl hlen hid, or_assoc]
  · have hno (o : List UInt8) : ¬Own vendorSpecificIe o e = true := by
      rw [Own, Bool.and_eq_true, decide_eq_true_iff, ← id_of_bytesAt h]
      exact fun hown => hid hown.1
    exact iff_of_false (fun hw => hid hw.1) (not_or_intro (not_or_intro (hno _) (hno _)) (hno _))

/-- What is done with an element that is copied : where it is not cut, the list stays. -/
theorem copy_of_not_cut {ies : Mem} {i : ℕ} {e : Elem} {es : List Elem} {t : Stream' UInt8}
    (h : bytesAt ies i = encode (e :: es) ++ₛ t) (hok : VendorLong env.wifiSpec e)
    (hcut : env.IsCut e = false)
    (hid : ies i = vendorSpecificIe) :
    (if env.wifiSpec = 0 ∧ ies.read (i + 2) 4 = wpsOui then ies.write (i + 1) [14] else ies) =
    ies := by
  split_ifs with hwps
  · have hown := (read_oui_iff h rfl hok.oui hid).mp hwps.2
    have hlen : e.body.length = 14 := by
      unfold IsCut at hcut
      rw [decide_eq_true hwps.1, hown] at hcut
      simpa using hcut
    have hbyte : ies (i + 1) = 14 := by
      rw [← UInt8.toNat_inj, len_of_bytesAt h, hlen]
      rfl
    funext a
    by_cases ha : a = i + 1
    · rw [ha, hbyte]
      exact (Mem.holds_cons.mp (Mem.read_write_self ies (i + 1) [14])).1
    · exact Mem.write_of_disjoint ies (by rw [List.length_singleton]; omega)
  · rfl

/-- An element that is cut is copied with 14 bytes. -/
theorem copy_of_cut {ies : Mem} {i : ℕ} {e : Elem} {es : List Elem} {t : Stream' UInt8}
    (h : bytesAt ies i = encode (e :: es) ++ₛ t) (hlen : 14 ≤ e.body.length) (f : List UInt8) :
    pushIe f vendorSpecificIe
      ((ies.write (i + 1) [14]).read (i + 2) ((ies.write (i + 1) [14]) (i + 1)).toNat) =
      f ++ (cutElem e).bytes := by
  have hbyte : (ies.write (i + 1) [14]) (i + 1) = 14 :=
    (Mem.holds_cons.mp (Mem.read_write_self ies (i + 1) [14])).1
  have hread : (ies.write (i + 1) [14]).read (i + 2) 14 = e.body.take 14 := by
    rw [Mem.read_write_of_disjoint ies (Or.inr (by rw [List.length_singleton]; omega)),
      body_of_bytesAt h,
      Stream'.append_append_stream, Stream'.take_append_of_le_length _ _ _ hlen]
  rw [hbyte]
  exact congrArg (pushIe f vendorSpecificIe) hread

/-- The loop is in step up to the first element that is cut. -/
theorem vendorLoop_elems {ieLength : ℕ} :
    ∀ {es : List Elem} {fuel i : ℕ} {ies : Mem} {f : List UInt8} {t : Stream' UInt8},
    bytesAt ies i = encode es ++ₛ t → ieLength = i + (encode es).length → ieLength ≤ i + fuel →
      (∀ e ∈ es, VendorLong env.wifiSpec e) → ∃ more,
        (env.vendorLoop ieLength fuel i ies f).2 = f ++ encode (env.vendorElems es ++ more) ∧
        ((∀ e ∈ es, env.IsCut e = false) →
        more = [] ∧ (env.vendorLoop ieLength fuel i ies f).1 = ies)
  | [], fuel, i, ies, f, t, _, hlen, _, _ => by
    have hnot : ¬i < ieLength := by
      rw [hlen, encode_nil, List.length_nil]
      omega
    have hend : env.vendorLoop ieLength fuel i ies f = (ies, f) := by
      cases fuel with
      | zero => rfl
      | succ fuel => rw [vendorLoop, if_neg hnot]
    rw [hend]
    exact ⟨[], (List.append_nil f).symm, fun _ => ⟨rfl, rfl⟩⟩
  | e :: es, fuel, i, ies, f, t, h, hlen, hfuel, hok => by
    have hlen' := hlen
    rw [encode_cons, List.length_append, Elem.length_bytes] at hlen'
    obtain ⟨fuel, rfl⟩ : ∃ k, fuel = k + 1 := ⟨fuel - 1, by omega⟩
    obtain ⟨he, hes⟩ := List.forall_mem_cons.mp hok
    have hbody := len_of_bytesAt h
    have hnext := next_of_bytesAt h
    rw [← Nat.cast_add] at hnext
    -- an element that is not cut
    have hpass (f : List UInt8) :
      ∃ more, (env.vendorLoop ieLength fuel (i + (e.body.length + 2)) ies f).2 =
        f ++ encode (env.vendorElems es ++ more) ∧ ((∀ e ∈ es, env.IsCut e = false) → more = [] ∧
          (env.vendorLoop ieLength fuel (i + (e.body.length + 2)) ies f).1 = ies) :=
      vendorLoop_elems hnext (by omega) (by omega) hes
    rw [vendorLoop, if_pos (by omega), vendorElems, if_congr (wanted_iff h he.oui) rfl rfl]
    by_cases hcut : env.IsCut e = true
    · have hcut' := hcut
      unfold IsCut at hcut'
      rw [Bool.and_eq_true, Bool.and_eq_true, decide_eq_true_iff, decide_eq_true_iff] at hcut'
      obtain ⟨⟨hspec, hwps⟩, -⟩ := hcut'
      have hwanted : Wanted e = true := by
        unfold Wanted
        rw [hwps, Bool.or_true]
      have hid : ies i = vendorSpecificIe := ((wanted_iff h he.oui).mpr hwanted).1
      have hinner : env.wifiSpec = 0 ∧ ies.read (i + 2) 4 = wpsOui :=
        ⟨hspec, (read_oui_iff h rfl he.oui hid).mpr hwps⟩
      rw [if_pos hwanted, if_pos hcut, if_pos hinner]
      dsimp only
      rw [copy_of_cut h (he.wps hspec hwps)]
      obtain ⟨more, hmore⟩ := @vendorLoop_whole env ieLength fuel
        (i + ((ies.write (i + 1) [14] (i + 1)).toNat + 2)) (ies.write (i + 1) [14])
          (f ++ (cutElem e).bytes)
      refine ⟨more, ?_, fun hno => ?_⟩
      · rw [hmore, List.cons_append, List.nil_append, encode_cons, List.append_assoc]
      · exact absurd hcut (by rw [hno e List.mem_cons_self]; exact Bool.false_ne_true)
    · have hcut' : env.IsCut e = false := Bool.not_eq_true _ ▸ hcut
      rw [if_neg hcut]
      by_cases hwanted : Wanted e = true
      · have hsame : (if env.wifiSpec = 0 ∧
          ies.read (i + 2) 4 = wpsOui then ies.write (i + 1) [14] else ies) = ies :=
          copy_of_not_cut h he hcut' ((wanted_iff h he.oui).mpr hwanted).1
        have hid : vendorSpecificIe = e.id :=
          ((wanted_iff h he.oui).mpr hwanted).1.symm.trans (id_of_bytesAt h)
        have hcopy : ies.read (i + 2) e.body.length = e.body := by
          rw [body_of_bytesAt h, Stream'.append_append_stream,
            Stream'.take_append_of_le_length _ _ _ le_rfl,
            List.take_length]
        rw [if_pos hwanted, if_pos hwanted, hsame]
        dsimp only
        rw [hbody, hcopy, hid, pushIe_elem]
        obtain ⟨more, hmore, hrest⟩ := hpass (f ++ e.bytes)
        refine ⟨more, ?_, fun hno => hrest (List.forall_mem_cons.mp hno).2⟩
        rw [hmore, List.cons_append, encode_cons, List.append_assoc]
      · rw [if_neg hwanted, if_neg hwanted]
        dsimp only
        rw [hbody]
        obtain ⟨more, hmore, hrest⟩ := hpass f
        exact ⟨more, hmore, fun hno => hrest (List.forall_mem_cons.mp hno).2⟩

/-! ## The other elements -/

/-- The network allows the stream that the station can receive with space-time coding. -/
def RxStbc (env : AssocEnv) : Prop :=
  env.rf1t1r ∧ env.rxStbc ≠ 0 ∨
    ¬env.rf1t1r ∧ (env.rxStbc = 3 ∨ env.wireless24N ∧ env.rxStbc = 1 ∨ env.wifiSpec = 1)

instance (env : AssocEnv) : Decidable env.RxStbc := inferInstanceAs (Decidable (_ ∨ _))

/-- The capabilities of the network with the channel width, the power save mode, the streams and the
rates of the station. -/
def stationHt (env : AssocEnv) (caps : List UInt8) : List UInt8 :=
  let width := if env.cbw40Enable then caps.getD 0 0 ||| 0x02 else caps.getD 0 0 &&& 0xbd
  let streams := if env.RxStbc then caps.getD 1 0 ||| (if env.rf1t1r then 0x01 else 0x02) else caps.getD 1 0
  [width ||| 0x0c, streams, caps.getD 2 0] ++ (if env.rf1t1r then mcsRate1R else mcsRate2R) ++ caps.drop 19

theorem setWidth_holds {m : Mem} {x : UInt8} {rest : List UInt8} (h : m.Holds 0 (x :: rest)) :
    (env.setWidth m).Holds 0
    (((if env.cbw40Enable then x ||| 0x02 else x &&& 0xbd) ||| 0x0c) :: rest) := by
  have hfirst {m : Mem} {x : UInt8} (y : UInt8) (h : m.Holds 0 (x :: rest)) :
    (m.write 0 [y]).Holds 0 (y :: rest) :=
    @holds_write_between _ [] [x] rest h [y] rfl
  have hbyte : m 0 = x := (Mem.holds_cons.mp h).1
  have hwidth : (if env.cbw40Enable then m.write 0 [m 0 ||| 0x02] else m.write 0
    [m 0 &&& 0xbd]).Holds 0
      ((if env.cbw40Enable then x ||| 0x02 else x &&& 0xbd) :: rest) := by
    rw [hbyte]
    split_ifs
    · exact hfirst _ h
    · exact hfirst _ h
  unfold setWidth
  dsimp only
  rw [(Mem.holds_cons.mp hwidth).1]
  exact hfirst _ hwidth

theorem setStreams_holds {m : Mem} {x y z : UInt8} {rest : List UInt8}
    (h : m.Holds 0 (x :: y :: z :: rest))
    (hrest : rest.length = 23) : (env.setStreams m).Holds 0
      ([x, if env.RxStbc then y ||| (if env.rf1t1r then 0x01 else 0x02) else y, z] ++
        (if env.rf1t1r then mcsRate1R else mcsRate2R) ++ rest.drop 16) := by
  have hsecond (w : UInt8) : (m.write 1 [w]).Holds 0 (x :: w :: z :: rest) :=
    @holds_write_between _ [x] [y] (z :: rest) h [w] rfl
  have hmcs {m : Mem} {w : UInt8} {rates : List UInt8} (h : m.Holds 0 (x :: w :: z :: rest))
    (hrates : rates.length = 16) :
      (m.write 3 rates).Holds 0 ([x, w, z] ++ rates ++ rest.drop 16) := by
    rw [List.append_assoc]
    refine @holds_write_between _ [x, w, z] (rest.take 16) (rest.drop 16) ?_ rates ?_
    · rw [List.take_append_drop]
      exact h
    · rw [List.length_take, hrates, hrest]
      rfl
  have hbyte : m 1 = y := (Mem.holds_cons.mp (Mem.holds_cons.mp h).2).1
  unfold setStreams
  dsimp only
  rw [hbyte]
  by_cases hrf : env.rf1t1r = true
  · have hstbc : env.RxStbc ↔ env.rxStbc ≠ 0 := by
      unfold RxStbc
      tauto
    rw [if_pos hrf, if_pos hrf, if_pos hrf, if_congr hstbc rfl rfl]
    split_ifs
    · exact hmcs (hsecond _) rfl
    · exact hmcs h rfl
  · have hstbc : env.RxStbc ↔ env.rxStbc = 3 ∨ env.wireless24N ∧ env.rxStbc = 1 ∨
      env.wifiSpec = 1 := by
      unfold RxStbc
      tauto
    rw [if_neg hrf, if_neg hrf, if_neg hrf, if_congr hstbc rfl rfl]
    split_ifs
    · exact hmcs (hsecond _) rfl
    · exact hmcs h rfl

/-- `HT_caps` holds the capabilities of the station. -/
theorem setHtCaps_holds {caps : List UInt8} (hlen : caps.length = 26) :
    (env.setHtCaps caps).Holds 0 (env.stationHt caps) := by
  obtain ⟨x, y, z, rest, rfl⟩ : ∃ x y z r, caps = x :: y :: z :: r := by
    match caps, hlen with
    | x :: y :: z :: r, _ => exact ⟨x, y, z, r, rfl⟩
  have hrest : rest.length = 23 := by simpa using hlen
  have hcopy : (env.htCaps.write 0 (x :: y :: z :: rest)).Holds 0 (x :: y :: z :: rest) :=
    Mem.read_write_self ..
  exact setStreams_holds (setWidth_holds hcopy) hrest

theorem length_stationHt (caps : List UInt8) :
    (env.stationHt caps).length = 19 + (caps.length - 19) := by
  unfold stationHt
  dsimp only
  rw [List.length_append, List.length_append, List.length_drop]
  congr 1
  split_ifs <;> rfl

theorem length_bssrate_le (r : AssocreqInput) : r.bssrate.length ≤ 16 := by
  unfold AssocreqInput.bssrate AssocreqInput.networkRates
  calc _ ≤ (((List.range 16).map r.supportedRates).takeWhile (· ≠ 0)).length :=
    List.length_filter_le _ _
    _ ≤ ((List.range 16).map r.supportedRates).length := (List.takeWhile_sublist _).length_le
    _ = 16 := by rw [List.length_map, List.length_range]

/-- The SSID element. -/
def ssidElem (env : AssocEnv) : Elem := ⟨ssidIe, env.ssid, env.ssid_le.trans (by decide)⟩

/-- The elements with the common rates. -/
def rateElems (env : AssocEnv) : List Elem :=
  let bssrate := env.rates.input.bssrate
  have hle : bssrate.length ≤ 255 := (length_bssrate_le _).trans (by decide)
  if 8 < bssrate.length then
    [⟨supportedratesIe, bssrate.take 8, (List.length_take_le' ..).trans hle⟩,
      ⟨extSupportedratesIe, bssrate.drop 8, by rw [List.length_drop]; omega⟩]
  else [⟨supportedratesIe, bssrate, hle⟩]

/-- The RSN element of the network. -/
def rsnElems (es : List Elem) : List Elem := (es.find? fun e => decide (e.id = wpa2IeId)).toList

/-- The HT capability element of the station. -/
def stationHtElem (env : AssocEnv) (e : Elem) : Elem where
  id := htCapabilityIe
  body := env.stationHt e.body
  length_le := by
    have hle := e.length_le
    rw [length_stationHt]
    omega

/-- The HT capability element for a network that has one and does not use TKIP. -/
def htElems (env : AssocEnv) (net : JoinBss) (es : List Elem) : List Elem :=
  if env.htOption ∧ ¬isApInTkip net.ies net.ieLength then
    (es.find? fun e => decide (e.id = htCapabilityIe)).toList.map env.stationHtElem
  else []

theorem length_p2pie (env : AssocEnv) : env.p2pie.length = 56 + env.deviceName.length := by
  unfold p2pie
  simp only [List.length_append, Vector.length_toList, List.length_cons, List.length_nil, le16Bytes,
    be16Bytes, p2pOui]
  omega

/-- The elements for an access point of the same vendor, and for P2P. -/
def ownElems (env : AssocEnv) : List Elem :=
  (if env.assocApVendor = .realtek then [⟨vendorSpecificIe, realtek96bIe, by decide⟩] else []) ++
    if env.p2pState ≠ .none ∧ env.p2pState ≠ .idle then
      [⟨vendorSpecificIe, env.p2pie, by
        have hle := env.deviceName_le
        rw [length_p2pie]
        omega⟩]
    else []

/-- The list is one that `issue_assocreq` is made for. -/
structure AssocOk (env : AssocEnv) (es : List Elem) : Prop where
  vendor : ∀ e ∈ es, VendorLong env.wifiSpec e
  ht : env.htOption → ∀ e ∈ es.find? (fun e => decide (e.id = htCapabilityIe)), e.body.length = 26
  /-- `bssrate` has room for the common rates. -/
  rates : env.rates.input.bssrate.length ≤ numRates

section Frame

variable {net : JoinBss} {es : List Elem} {t : Stream' UInt8}

theorem pushRates_elems (f : List UInt8) : env.pushRates f = f ++ encode env.rateElems := by
  unfold pushRates rateElems
  dsimp only
  split_ifs
  · simp [pushIe, Elem.bytes, Elem.len]
  · simp [pushIe, Elem.bytes, Elem.len]

theorem pushRsn_elems (f : List UInt8) (hin : bytesAt net.ies 12 = encode es ++ₛ t)
    (hlen : net.ieLength = 12 + (encode es).length) : pushRsn net f = f ++ encode
    (rsnElems es) := by
  have hlimit : (net.ieLength : ℤ) - 12 = (encode es).length := by omega
  unfold pushRsn rsnElems
  rw [hlimit]
  rcases rtwGetIe_cases hin wpa2IeId with ⟨hfind, hget⟩ | ⟨e, q, hfind, hget, hread⟩
  · rw [hfind, hget]
    exact (List.append_nil f).symm
  · have hid : wpa2IeId = e.id := by
      have hown := List.find?_some hfind
      exact (of_decide_eq_true hown).symm
    rw [hfind, hget]
    dsimp only
    rw [hread, Option.toList_some, encode_cons, encode_nil, List.append_nil, ← pushIe_elem, hid]

theorem pushHt_elems (f : List UInt8) (hin : bytesAt net.ies 12 = encode es ++ₛ t)
    (hlen : net.ieLength = 12 + (encode es).length) (hok : env.AssocOk es) :
    env.pushHt net f = f ++ encode (env.htElems net es) := by
  have hlimit : (net.ieLength : ℤ) - 12 = (encode es).length := by omega
  unfold pushHt htElems
  by_cases hht : env.htOption = true
  swap
  · rw [if_neg hht, if_neg fun h => hht h.1, encode_nil, List.append_nil]
  rw [if_pos hht, if_congr (and_iff_right hht) rfl rfl, hlimit]
  rcases rtwGetIe_cases hin htCapabilityIe with ⟨hfind, hget⟩ | ⟨e, q, hfind, hget, hread⟩
  · rw [hfind, hget]
    simp
  · have h26 := hok.ht hht e hfind
    rw [hfind, hget]
    dsimp only
    by_cases htkip : isApInTkip net.ies net.ieLength = true
    · rw [if_pos htkip, if_neg (not_not_intro htkip), encode_nil, List.append_nil]
    · have hcaps := @setHtCaps_holds env e.body h26
      have hstation : (env.stationHt e.body).length = 26 := by rw [length_stationHt, h26]
      unfold Mem.Holds at hcaps
      rw [h26] at hread ⊢
      rw [hstation] at hcaps
      rw [if_neg htkip, if_pos htkip, hread, hcaps, Option.toList_some, List.map_singleton,
        encode_cons, encode_nil,
        List.append_nil]
      exact pushIe_elem f (env.stationHtElem e)

theorem pushOwn_elems (f : List UInt8) : env.pushOwn f = f ++ encode env.ownElems := by
  unfold pushOwn ownElems
  dsimp only
  split_ifs <;> simp [pushIe, Elem.bytes, Elem.len]

end Frame

/-- The elements of the frame, in their order. Up to the first WPS element that is cut the vendor
elements are those of the network, and if there is none the list of the network stays as it is. -/
theorem issueAssocreq_frame (env : AssocEnv) (net : JoinBss) (l : JoinEnv.Network net) (hok : env.AssocOk l.elems) :
    (env.rates.input.bssrate = [] → env.issueAssocreq net = none) ∧
    (env.rates.input.bssrate ≠ [] → ∃ ies more, env.issueAssocreq net = some (ies, env.start net ++
        encode (env.ssidElem :: env.rateElems ++ rsnElems l.elems ++ env.htElems net l.elems ++
          env.vendorElems l.elems ++ more ++ env.ownElems)) ∧
      ((∀ e ∈ l.elems, env.IsCut e = false) →
        more = [] ∧ env.vendorElems l.elems = l.elems.filter Wanted ∧ ies = net.ies)) := by
  have hin := l.bytesAt_elems
  have hlen := l.length_eq
  unfold issueAssocreq
  constructor
  · intro hnil
    rw [hnil]
    exact if_pos rfl
  · intro hne
    rw [if_neg fun h => hne (List.length_eq_zero_iff.mp h)]
    dsimp only
    have hssid : pushIe (env.start net) ssidIe env.ssid = env.start net ++ encode
      [env.ssidElem] := by
      rw [encode_cons, encode_nil, List.append_nil]
      exact pushIe_elem _ env.ssidElem
    rw [hssid, pushRates_elems, pushRsn_elems _ hin hlen, pushHt_elems _ hin hlen hok]
    obtain ⟨more, hmore, hrest⟩ := @vendorLoop_elems env net.ieLength l.elems net.ieLength 12 net.ies
      (env.start net ++ encode [env.ssidElem] ++ encode env.rateElems ++ encode (rsnElems l.elems) ++
        encode (env.htElems net l.elems)) _ hin hlen (by omega) hok.vendor
    generalize env.vendorLoop net.ieLength net.ieLength 12 net.ies _ = r at hmore hrest ⊢
    refine ⟨r.1, more, ?_, fun hno => ⟨(hrest hno).1, vendorElems_eq_filter hno, (hrest hno).2⟩⟩
    rw [pushOwn_elems, hmore]
    simp only [encode_append, encode_cons, encode_nil, List.cons_append, List.append_assoc,
      List.append_nil]

/-! ## An access point of the same vendor -/

/-- A network with an SSID element. -/
def ssidBss : JoinBss where
  macAddress := zeroAddr
  ies := Mem.write (fun _ => 0) 12 [0, 1, 97]
  ieLength := 15

theorem length_ssidFixed : (List.replicate 12 (0 : UInt8)).length = 12 := List.length_replicate

def ssidNetwork : JoinEnv.Network ssidBss where
  fixed := List.replicate 12 0
  elems := [⟨ssidIe, [97], LiteralIndex.length_letter⟩]
  length_fixed := length_ssidFixed
  length_eq := rfl
  read_eq := by decide

/-- A station that has the rate of the network, at an access point with a Realtek device. -/
def realtekEnv : AssocEnv where
  macAddr := zeroAddr
  mgntSeq := 1
  ssid := [97]
  ssid_le := by decide
  rates := ⟨fun i => if i = 0 then 0x82 else 0, fun i => if i = 0 then 0 else 0xff, fun _ => 0xff, 1, fun _ => 0⟩
  htOption := false
  cbw40Enable := false
  rxStbc := 0
  wifiSpec := 0
  rf1t1r := true
  wireless24N := false
  assocApVendor := .realtek
  p2pState := .none
  persistentSupported := false
  displayPin := false
  deviceName := []
  deviceName_le := by decide
  deviceAddr := zeroAddr
  htCaps := fun _ => 0

theorem length_sampleRsn : [(1 : UInt8), 0, 0x00, 0x0f, 0xac, 0x04].length ≤ 255 := by decide

theorem length_sampleWmm : (wmmOui ++ [0x01, 0x01, 0x80] : List UInt8).length ≤ 255 := by decide

theorem length_sampleWps : (wpsOui ++ [0x10, 0x4a, 0x00, 0x01, 0x10, 0x10, 0x44, 0x00, 0x01, 0x02,
    0x10, 0x3b, 0x00, 0x01, 0x03] : List UInt8).length ≤ 255 := by decide

def sampleRsn : Elem := ⟨wpa2IeId, _, length_sampleRsn⟩

def sampleWmm : Elem := ⟨vendorSpecificIe, _, length_sampleWmm⟩

/-- A WPS element of 19 bytes. -/
def sampleWps : Elem := ⟨vendorSpecificIe, _, length_sampleWps⟩

/-- A network with an RSN, a WMM and a WPS element. -/
def wpsBss : JoinBss where
  macAddress := zeroAddr
  ies := Mem.write (fun _ => 0) 12 ([0, 1, 97] ++ encode [sampleRsn, sampleWmm, sampleWps])
  ieLength := 53

def wpsNetwork : JoinEnv.Network wpsBss where
  fixed := List.replicate 12 0
  elems := [⟨ssidIe, [97], LiteralIndex.length_letter⟩, sampleRsn, sampleWmm, sampleWps]
  length_fixed := length_ssidFixed
  length_eq := rfl
  read_eq := by decide

theorem realtekEnv_wps : realtekEnv.AssocOk wpsNetwork.elems where
  vendor := by
    refine List.forall_mem_cons.mpr ⟨?_, List.forall_mem_cons.mpr ⟨?_, List.forall_mem_cons.mpr
      ⟨?_, List.forall_mem_singleton.mpr ?_⟩⟩⟩ <;> exact ⟨by decide, by decide⟩
  ht := fun h => absurd h (by decide)
  rates := by decide

/-- The WPS element is cut. -/
theorem issueAssocreq_frame_sample :
    ∃ ies more, realtekEnv.issueAssocreq wpsBss = some (ies, realtekEnv.start wpsBss ++
      encode (realtekEnv.ssidElem :: realtekEnv.rateElems ++ [sampleRsn, sampleWmm, cutElem sampleWps]
        ++ more ++ realtekEnv.ownElems)) := by
  obtain ⟨ies, more, hframe, -⟩ :=
    (issueAssocreq_frame realtekEnv wpsBss wpsNetwork realtekEnv_wps).2 (by decide)
  have hrsn : rsnElems wpsNetwork.elems = [sampleRsn] := rfl
  have hht : realtekEnv.htElems wpsBss wpsNetwork.elems = [] := rfl
  have hvendor : realtekEnv.vendorElems wpsNetwork.elems = [sampleWmm, cutElem sampleWps] := rfl
  rw [hrsn, hht, hvendor] at hframe
  exact ⟨ies, more, by simpa using hframe⟩

/-- The vendor elements of the frame are not always the WPA, WMM and WPS elements of the network. -/
theorem not_vendor_of_network : ¬∀ (env : AssocEnv) (net : JoinBss) (l : JoinEnv.Network net) (ies : Mem) (es : List Elem),
    env.issueAssocreq net = some (ies, env.start net ++ encode es) →
      (es.filter fun e => decide (e.id = vendorSpecificIe)).map Elem.bytes = (l.elems.filter Wanted).map Elem.bytes := by
  intro hall
  have hrun : (realtekEnv.issueAssocreq ssidBss).map Prod.snd = some (realtekEnv.start ssidBss ++
      encode [⟨ssidIe, [97], by decide⟩, ⟨supportedratesIe, [0x82], by decide⟩,
      ⟨vendorSpecificIe, realtek96bIe, by decide⟩]) := by
    decide +kernel
  obtain ⟨⟨ies, f⟩, hsome, hf⟩ := Option.map_eq_some_iff.mp hrun
  dsimp only at hf
  rw [hf] at hsome
  have hsame := hall realtekEnv ssidBss ssidNetwork ies _ hsome
  revert hsame
  decide

end AssocEnv

end Rtl8188eu
