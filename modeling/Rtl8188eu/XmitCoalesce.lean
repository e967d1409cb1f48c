import Rtl8188eu.RecvOrigin
import Rtl8188eu.WlanHeader
import Rtl8188eu.XmitFragments

/-!
# Building a data frame

`rtw_xmitframe_coalesce` as a whole : the header by `rtw_make_wlanhdr`, the fragments, the MIC of
TKIP by `xmitframe_addmic`, and the encryption by `xmitframe_swencrypt`. It fails for a frame
without a packet or a station, if there is no header for the role of the device, and if the MIC key
of TKIP is missing (`Buildable`).

`xmitframe_need_length` says before how long a frame that is not fragmented is going to be, and it
is right for each cipher and header (`coalesce_of_buildable`).
-/

set_option linter.unusedSectionVars false

namespace Rtl8188eu

/-! ## The functions of the source -/

/-- `struct pkt_attrib`, as far as data frames need it. -/
structure XmitAttrib extends HdrAttrib where
  etherType : ℕ
  hdrlen_lt : hdrlen < 2 ^ 16
  bswenc : Bool
  keyIdx : ℕ
  icv : List UInt8
  /-- The length of the packet behind its Ethernet header. -/
  pktlen : ℕ
  ta : MacAddr
  qosEn : Bool
  dhcpPkt : Bool
  lastTxcmdsz : ℤ
  nrFrags : ℕ

/-- The attributes that the loops over the fragments use. -/
def XmitAttrib.tx (a : XmitAttrib) : TxAttrib :=
  ⟨a.ra, a.etherType, a.hdrlen, a.hdrlen_lt, a.encrypt, a.bswenc, a.keyIdx, a.icv, a.pktlen⟩

/-- `xmitframe_need_length`. -/
def XmitAttrib.needLength (a : XmitAttrib) : ℕ :=
  let len := a.hdrlen + a.tx.ivLen + 6 + 2 + a.pktlen + a.tx.swIcvLen
  if a.encrypt = .tkip then len + 8 else len

/-- A packet of the network stack, behind its Ethernet header. -/
structure TxPacket where
  bytes : List UInt8
  bytes_lt : bytes.length < 2 ^ 16

/-- `struct xmit_frame` of a data frame. `update_attrib` has set `pktlen` by the packet. -/
structure DataFrame where
  attrib : XmitAttrib
  bufAddr : ℤ
  pktOffset : ℕ
  aggNum : ℕ
  pkt : Option TxPacket
  pktlen_eq : ∀ p, pkt = some p → p.bytes.length = attrib.pktlen

namespace DataFrame

/-- `hw_hdr_offset`. -/
def hwHdrOffset (x : DataFrame) : ℕ := txdescSize + x.pktOffset * packetOffsetSz

/-- Where the header of the frame is. -/
def start (x : DataFrame) : ℤ := x.bufAddr + x.hwHdrOffset

/-- The frame with a packet, for the loop of `rtw_xmitframe_coalesce`. -/
def buf (x : DataFrame) (pkt : TxPacket) : XmitFrameBuf :=
  ⟨x.bufAddr, x.pktOffset, x.attrib.tx, pkt.bytes, pkt.bytes_lt.trans (by norm_num)⟩

end DataFrame

/-- What `rtw_xmitframe_coalesce` leaves behind. -/
structure CoalesceResult (ι : Type) where
  status : Status
  adapter : Adapter ι
  mem : Mem
  attrib : XmitAttrib

/-- A text is replaced by what RC4 makes of it and of its checksum. -/
def arcfourAt (key : List UInt8) (m : Mem) (p : ℤ) (length : ℕ) : Mem :=
  let text := m.read p length
  m.write p (arcfourEncrypt (arcfourInit key) (text ++ getcrc32 text)).1

namespace Adapter

variable {ι : Type}

/-- The station of a frame. -/
def frameSta (s : Adapter ι) (a : HdrAttrib) : Option StaId := a.psta.or (s.rtwGetStainfo a.ra)

/-- The MIC key for the frames to a station. -/
def txMicKey (s : Adapter ι) (a : HdrAttrib) (k : StaId) : Key :=
  if isMcast a.ra then s.securitypriv.dot118021XGrptxmickey s.securitypriv.dot118021XGrpKeyid
  else (s.sta k).dot11tkiptxmickey

/-- The temporal key for the frames to a station. -/
def txKey (s : Adapter ι) (a : HdrAttrib) (k : StaId) : Key :=
  if isMcast a.ra then s.securitypriv.dot118021XGrpKey s.securitypriv.dot118021XGrpKeyid
  else (s.sta k).dot118021xUncstKey

/-- `xmitframe_addmic`, with the new length of the last fragment, if it does not fail. -/
def xmitframeAddmic (s : Adapter ι) (fragLen : ℕ) (a : XmitAttrib) (start : ℤ) (m : Mem) : Option (Mem × ℤ) :=
  if a.encrypt = .tkip then
    match s.frameSta a.toHdrAttrib with
    | none => some (m, a.lastTxcmdsz)
    | some k =>
      let key := s.txMicKey a.toHdrAttrib k
      if key = Vector.replicate 16 0 then none
      else
        let frags := a.tx.addmicFrags fragLen a.lastTxcmdsz a.nrFrags start
        let payload (f : Frag) : ℤ := f.start + a.hdrlen + a.tx.ivLen
        let data := frags.flatMap fun f => m.read (payload f) (u32 f.len)
        let mic := rtwSeccalctkipmic key.toList m start data (if a.qosEn then UInt8.ofNat a.priority else 0)
        let micAt := frags.getLast?.elim start fun f => payload f + f.len
        some (m.write micAt mic, a.lastTxcmdsz + 8)
  else some (m, a.lastTxcmdsz)

/-- The body of the loops of `rtw_wep_encrypt`, `rtw_tkip_encrypt` and `rtw_aes_encrypt`. -/
def encryptFrag (s : Adapter ι) (a : XmitAttrib) (m : Mem) (f : Frag) : Mem :=
  let iv := f.start + a.hdrlen
  match a.encrypt, s.frameSta a.toHdrAttrib with
  | .wep40, _ | .wep104, _ =>
    let index := s.securitypriv.dot11PrivacyKeyIndex
    let key := (s.securitypriv.dot11DefKey index).toList.take (s.securitypriv.dot11DefKeylen index)
    arcfourAt (m.read iv 3 ++ key) m (iv + a.tx.ivLen) (u32 f.len)
  | .tkip, some k =>
    let rc4key := tkipKey (s.txKey a.toHdrAttrib k).toList a.ta.toList (m.read iv 8)
    arcfourAt rc4key m (iv + a.tx.ivLen) (u32 f.len)
  | .aes, some k => aesCipher (s.txKey a.toHdrAttrib k) a.hdrlen m f.start (u32 f.len)
  | _, _ => m

/-- `xmitframe_swencrypt`. -/
def xmitframeSwencrypt (s : Adapter ι) (fragLen : ℕ) (a : XmitAttrib) (start : ℤ) (m : Mem) : Mem :=
  if a.bswenc then (a.tx.cipherFrags fragLen a.lastTxcmdsz a.nrFrags start).foldl (s.encryptFrag a) m else m

/-- The end of `rtw_xmitframe_coalesce`, behind the loop. -/
def coalesceEnd (s : Adapter ι) (fragLen : ℕ) (a : XmitAttrib) (start : ℤ) (m : Mem) : CoalesceResult ι :=
  match s.xmitframeAddmic fragLen a start m with
  | none => ⟨.fail, s, m, a⟩
  | some (m, last) =>
    let a := { a with lastTxcmdsz := last }
    ⟨.success, s, s.xmitframeSwencrypt fragLen a start m, a⟩

/-- `rtw_xmitframe_coalesce`. There is no result if `rtw_make_wlanhdr` has none, or if the loop does
not end. -/
def rtwXmitframeCoalesce (s : Adapter ι) (fragLen : ℕ) (m : Mem) (x : DataFrame) : Option (CoalesceResult ι) :=
  match x.pkt, s.rtwGetStainfo x.attrib.ra with
  | some pkt, some psta =>
    (s.rtwMakeWlanhdr ⟨m, x.start, x.attrib.toHdrAttrib⟩).bind fun h =>
      let a := { x.attrib with seqnum := h.attrib.seqnum, ampduEn := h.attrib.ampduEn }
      if h.status = .fail then some ⟨.fail, h.adapter, h.mem, a⟩
      else
        ((x.buf pkt).coalesce fragLen h.mem (h.adapter.sta psta).dot11txpn.toBitVec).map fun c =>
          let s := h.adapter.updateSta psta fun st => { st with dot11txpn := ⟨c.pn⟩ }
          s.coalesceEnd fragLen { a with lastTxcmdsz := c.lastTxcmdsz, nrFrags := c.nrFrags } x.start c.mem
  | _, _ => some ⟨.fail, s, m, x.attrib⟩

/-- The frame can be built. -/
structure Buildable (s : Adapter ι) (x : DataFrame) : Prop where
  pkt : x.pkt ≠ none
  sta : s.rtwGetStainfo x.attrib.ra ≠ none
  role : x.attrib.subtype &&& wifiDataType ≠ 0 → linkRole s.mlmepriv.fwState ≠ none
  micKey : x.attrib.encrypt = .tkip → ∀ k, s.frameSta x.attrib.toHdrAttrib = some k →
    s.txMicKey x.attrib.toHdrAttrib k ≠ Vector.replicate 16 0

end Adapter

/-- Where the frame is to be built does not matter. -/
theorem Adapter.Buildable.congr {ι : Type} {s : Adapter ι} {x x' : DataFrame} (h : s.Buildable x)
    (hattrib : x'.attrib = x.attrib) (hpkt : x'.pkt = x.pkt) : s.Buildable x' := by
  obtain ⟨hp, hsta, hrole, hmic⟩ := h
  rw [← hattrib] at hsta hrole hmic
  rw [← hpkt] at hp
  exact ⟨hp, hsta, hrole, hmic⟩

/-- The packet goes into one fragment. -/
def DataFrame.Unfragmented (fragLen : ℕ) (x : DataFrame) : Prop :=
  isMcast x.attrib.ra = true ∨
    ∀ pkt, x.pkt = some pkt → pkt.bytes.length ≤ u32 ((x.buf pkt).mpduLen fragLen (rtwPutSnap x.attrib.etherType))

/-! ## What is left as it is -/

/-- The attributes that a frame keeps when it is built. -/
structure SameAttrib (a a' : XmitAttrib) : Prop where
  psta : a'.psta = a.psta
  priority : a'.priority = a.priority
  ra : a'.ra = a.ra
  etherType : a'.etherType = a.etherType
  dhcpPkt : a'.dhcpPkt = a.dhcpPkt
  pktlen : a'.pktlen = a.pktlen
  needLength : a'.needLength = a.needLength

theorem SameAttrib.refl (a : XmitAttrib) : SameAttrib a a := ⟨rfl, rfl, rfl, rfl, rfl, rfl, rfl⟩

theorem SameAttrib.trans {a b c : XmitAttrib} (h : SameAttrib a b) (h' : SameAttrib b c) :
    SameAttrib a c :=
  ⟨h'.psta.trans h.psta, h'.priority.trans h.priority, h'.ra.trans h.ra,
    h'.etherType.trans h.etherType,
    h'.dhcpPkt.trans h.dhcpPkt, h'.pktlen.trans h.pktlen, h'.needLength.trans h.needLength⟩

theorem StaInfo.numberFrame_same (st : StaInfo) (a : HdrAttrib) :
    (st.numberFrame a).2.hwaddr = st.hwaddr ∧ (st.numberFrame a).2.dot11tkiptxmickey =
    st.dot11tkiptxmickey := by
  unfold StaInfo.numberFrame
  dsimp only
  split_ifs <;> exact ⟨rfl, rfl⟩

namespace Adapter

/-- The stations, the link and the keys are the same. -/
structure SameTxKeys {ι : Type} (s s' : Adapter ι) : Prop extends SameStations s s' where
  securitypriv : s'.securitypriv = s.securitypriv
  micKey : ∀ k, (s'.sta k).dot11tkiptxmickey = (s.sta k).dot11tkiptxmickey

namespace SameTxKeys

variable {ι : Type} [DecidableEq ι] {s s' t : Adapter ι}

theorem refl (s : Adapter ι) : SameTxKeys s s := ⟨SameStations.refl s, rfl, fun _ => rfl⟩

theorem trans (h : SameTxKeys s s') (h' : SameTxKeys s' t) : SameTxKeys s t :=
  ⟨h.toSameStations.trans h'.toSameStations, h'.securitypriv.trans h.securitypriv,
    fun k => (h'.micKey k).trans (h.micKey k)⟩

/-- A record changes, but not its address and its MIC key. -/
theorem updateSta {k : StaId} {g : StaInfo → StaInfo}
    (haddr : (g (s.sta k)).hwaddr = (s.sta k).hwaddr)
    (hmic : (g (s.sta k)).dot11tkiptxmickey = (s.sta k).dot11tkiptxmickey) : SameTxKeys s
    (s.updateSta k g) := by
  refine ⟨sameStations_updateSta haddr, rfl, fun j => ?_⟩
  rcases eq_or_ne j k with rfl | hj
  · rw [Adapter.updateSta]
    dsimp only
    rwa [Function.update_self]
  · rw [Adapter.updateSta]
    dsimp only
    rw [Function.update_of_ne hj]

theorem frameSta (h : SameTxKeys s s') (a : HdrAttrib) : s'.frameSta a = s.frameSta a := by
  unfold Adapter.frameSta
  rw [h.rtwGetStainfo]

theorem txMicKey (h : SameTxKeys s s') (a : HdrAttrib) (k : StaId) :
    s'.txMicKey a k = s.txMicKey a k := by
  unfold Adapter.txMicKey
  rw [h.securitypriv, h.micKey]

/-- The same frames can be built. -/
theorem buildable_iff (h : SameTxKeys s s') (x : DataFrame) : s'.Buildable x ↔ s.Buildable x := by
  constructor
  · rintro ⟨hpkt, hsta, hrole, hmic⟩
    rw [h.rtwGetStainfo] at hsta
    rw [h.mlmepriv] at hrole
    refine ⟨hpkt, hsta, hrole, fun ht k hk => ?_⟩
    rw [← h.txMicKey]
    exact hmic ht k (by rwa [h.frameSta])
  · rintro ⟨hpkt, hsta, hrole, hmic⟩
    rw [← h.rtwGetStainfo] at hsta
    rw [← h.mlmepriv] at hrole
    refine ⟨hpkt, hsta, hrole, fun ht k hk => ?_⟩
    rw [h.txMicKey]
    exact hmic ht k (by rwa [← h.frameSta])

end SameTxKeys

variable {ι : Type} [DecidableEq ι] {s : Adapter ι} {fragLen : ℕ} {m : Mem} {x : DataFrame}
  {r : CoalesceResult ι}

theorem rtwMakeWlanhdr_same {f : TxFrame} {h : Wlanhdr ι} (hr : s.rtwMakeWlanhdr f = some h) :
    SameTxKeys s h.adapter := by
  rcases rtwMakeWlanhdr_adapter hr with heq | ⟨k, -, heq⟩
  · rw [heq]
    exact SameTxKeys.refl s
  · rw [heq]
    exact SameTxKeys.updateSta ((s.sta k).numberFrame_same f.attrib).1
      ((s.sta k).numberFrame_same f.attrib).2

/-- When there is no header. -/
theorem rtwMakeWlanhdr_status {f : TxFrame} {h : Wlanhdr ι} (hr : s.rtwMakeWlanhdr f = some h) :
    h.status ≠ .fail ↔ (f.attrib.subtype &&& wifiDataType ≠ 0 →
      linkRole s.mlmepriv.fwState ≠ none) := by
  unfold rtwMakeWlanhdr at hr
  dsimp only at hr
  split at hr
  · rename_i hdata
    cases hr
    exact iff_of_true (fun hc => nomatch hc) fun hne => absurd hdata hne
  · rename_i hdata
    cases hrole : linkRole s.mlmepriv.fwState with
    | none =>
      rw [hrole] at hr
      cases hr
      exact iff_of_false (fun hc => hc rfl) fun himp => himp hdata rfl
    | some role =>
      rw [hrole] at hr
      obtain ⟨qos, -, rfl⟩ := Option.map_eq_some_iff.mp hr
      refine iff_of_true ?_ fun _ => Option.some_ne_none role
      cases s.headerSta f.attrib with
      | none => exact fun hc => nomatch hc
      | some k => exact fun hc => nomatch hc

/-- There is a result for a frame with a station. -/
theorem exists_rtwMakeWlanhdr {f : TxFrame} {k : StaId} (hk : f.attrib.psta = some k) :
    ∃ h, s.rtwMakeWlanhdr f = some h := by
  have hsta : s.headerSta f.attrib = some k := by
    unfold headerSta
    rw [hk]
  unfold rtwMakeWlanhdr
  dsimp only
  split
  · exact ⟨_, rfl⟩
  · rw [hsta]
    cases linkRole s.mlmepriv.fwState with
    | none => exact ⟨_, rfl⟩
    | some role =>
      have hqos : ∃ qos, s.hdrQos (some k) role = some qos := by
        cases role with
        | station => exact ⟨_, rfl⟩
        | ap => exact ⟨_, rfl⟩
        | adhoc => exact ⟨_, rfl⟩
      obtain ⟨qos, hq⟩ := hqos
      dsimp only
      rw [hq]
      exact ⟨_, rfl⟩

/-- The MIC key of the frame is missing. -/
def LacksMicKey (s : Adapter ι) (a : XmitAttrib) : Prop :=
  a.encrypt = .tkip ∧ ∃ k, s.frameSta a.toHdrAttrib = some k ∧ s.txMicKey a.toHdrAttrib k = Vector.replicate 16 0

theorem xmitframeAddmic_eq_none {a : XmitAttrib} {start : ℤ} :
    s.xmitframeAddmic fragLen a start m = none ↔ s.LacksMicKey a := by
  unfold xmitframeAddmic LacksMicKey
  by_cases ht : a.encrypt = .tkip
  · rw [if_pos ht]
    cases hsta : s.frameSta a.toHdrAttrib with
    | none => simp
    | some k =>
      dsimp only
      split
      · rename_i hkey
        exact iff_of_true rfl ⟨ht, k, rfl, hkey⟩
      · rename_i hkey
        refine iff_of_false (fun hc => nomatch hc) ?_
        rintro ⟨-, j, hj, hkey'⟩
        cases hj
        exact hkey hkey'
  · rw [if_neg ht]
    exact iff_of_false (fun hc => nomatch hc) fun hc => ht hc.1

/-- The length of the frame with the MIC. -/
theorem xmitframeAddmic_last {a : XmitAttrib} {start last : ℤ} {m' : Mem} {k : StaId}
    (hk : s.frameSta a.toHdrAttrib = some k)
    (h : s.xmitframeAddmic fragLen a start m = some (m', last)) :
    last = a.lastTxcmdsz + a.tx.micLen := by
  unfold xmitframeAddmic at h
  unfold TxAttrib.micLen
  change last = a.lastTxcmdsz + ((if a.encrypt = .tkip then 8 else 0 : ℕ) : ℤ)
  split at h
  · rename_i ht
    rw [hk] at h
    dsimp only at h
    split at h
    · cases h
    · cases h
      rw [if_pos ht]
      rfl
  · rename_i ht
    cases h
    rw [if_neg ht]
    simp

/-- What the end of `rtw_xmitframe_coalesce` does. -/
theorem coalesceEnd_spec (s : Adapter ι) (fragLen : ℕ) (a : XmitAttrib) (start : ℤ) (m : Mem) :
    (s.coalesceEnd fragLen a start m).adapter = s ∧
      (∃ last, (s.coalesceEnd fragLen a start m).attrib = { a with lastTxcmdsz := last }) ∧
      ((s.LacksMicKey a ∧ (s.coalesceEnd fragLen a start m).status = .fail) ∨
        (¬s.LacksMicKey a ∧ (s.coalesceEnd fragLen a start m).status = .success ∧
          ∀ k, s.frameSta a.toHdrAttrib = some k →
            (s.coalesceEnd fragLen a start m).attrib.lastTxcmdsz =
            a.lastTxcmdsz + a.tx.micLen)) := by
  unfold coalesceEnd
  split
  · rename_i hnone
    exact ⟨rfl, ⟨_, rfl⟩, Or.inl ⟨xmitframeAddmic_eq_none.mp hnone, rfl⟩⟩
  · rename_i m' last hsome
    refine ⟨rfl, ⟨_, rfl⟩, Or.inr ⟨fun hlack => ?_, rfl, fun k hk => xmitframeAddmic_last hk hsome⟩⟩
    rw [xmitframeAddmic_eq_none.mpr hlack] at hsome
    cases hsome

/-- What `rtw_xmitframe_coalesce` does to any frame. -/
theorem coalesce_spec (h : s.rtwXmitframeCoalesce fragLen m x = some r) :
    SameTxKeys s r.adapter ∧ SameAttrib x.attrib r.attrib ∧
      ((s.Buildable x ∧ r.status = .success) ∨ (¬s.Buildable x ∧ r.status = .fail)) := by
  unfold rtwXmitframeCoalesce at h
  split at h
  · rename_i pkt psta hpkt hsta
    obtain ⟨hdr, hhdr, hr⟩ := Option.bind_eq_some_iff.mp h
    have hsame := rtwMakeWlanhdr_same hhdr
    have hstatus := rtwMakeWlanhdr_status hhdr
    dsimp only at hr hstatus
    split at hr
    · rename_i hfail
      cases hr
      exact ⟨hsame, ⟨rfl, rfl, rfl, rfl, rfl, rfl, rfl⟩,
        Or.inr ⟨fun hb => hstatus.mpr hb.role hfail, rfl⟩⟩
    · rename_i hfail
      obtain ⟨c, -, rfl⟩ := Option.map_eq_some_iff.mp hr
      have hsame' : SameTxKeys s
        (hdr.adapter.updateSta psta fun st => { st with dot11txpn := ⟨c.pn⟩ }) :=
        hsame.trans (SameTxKeys.updateSta rfl rfl)
      generalize hdr.adapter.updateSta psta (fun st => { st with dot11txpn := ⟨c.pn⟩ }) =
        t at hsame' ⊢
      obtain ⟨hadapter, ⟨last, hattrib⟩, hcases⟩ := t.coalesceEnd_spec fragLen
        { { x.attrib with seqnum := hdr.attrib.seqnum, ampduEn := hdr.attrib.ampduEn } with
          lastTxcmdsz := c.lastTxcmdsz, nrFrags := c.nrFrags } x.start c.mem
      have hlacks : t.LacksMicKey
        { { x.attrib with seqnum := hdr.attrib.seqnum, ampduEn := hdr.attrib.ampduEn } with
          lastTxcmdsz := c.lastTxcmdsz, nrFrags := c.nrFrags } ↔ s.LacksMicKey x.attrib := by
        unfold LacksMicKey
        simp only [hsame'.frameSta, hsame'.txMicKey]
        exact Iff.rfl
      rw [hadapter, hattrib]
      refine ⟨hsame', ⟨rfl, rfl, rfl, rfl, rfl, rfl, rfl⟩, ?_⟩
      rcases hcases with ⟨hlack, hstat⟩ | ⟨hlack, hstat, -⟩
      · obtain ⟨ht, k, hk, hkey⟩ := hlacks.mp hlack
        exact Or.inr ⟨fun hb => hb.micKey ht k hk hkey, hstat⟩
      · refine Or.inl ⟨⟨?_, ?_, hstatus.mp hfail,
          fun ht k hk hkey => hlack (hlacks.mpr ⟨ht, k, hk, hkey⟩)⟩, hstat⟩
        · rw [hpkt]
          exact Option.some_ne_none pkt
        · rw [hsta]
          exact Option.some_ne_none psta
  · rename_i hno
    cases h
    refine ⟨SameTxKeys.refl s, ⟨rfl, rfl, rfl, rfl, rfl, rfl, rfl⟩, Or.inr ⟨fun hb => ?_, rfl⟩⟩
    obtain ⟨pkt, hpkt⟩ := Option.ne_none_iff_exists'.mp hb.pkt
    obtain ⟨psta, hsta⟩ := Option.ne_none_iff_exists'.mp hb.sta
    exact hno pkt psta hpkt hsta

end Adapter

/-! ## Frames that are not fragmented -/

/-- A packet that goes into one fragment. -/
theorem XmitFrameBuf.coalesce_of_le {x : XmitFrameBuf} {fragLen : ℕ} {m : Mem} {pn : BitVec 64}
    (hlen : isMcast x.attrib.ra = true → x.pkt.length = x.attrib.pktlen)
    (h : isMcast x.attrib.ra = true ∨
    x.pkt.length ≤ u32 (x.mpduLen fragLen (rtwPutSnap x.attrib.etherType))) :
    ∃ r, x.coalesce fragLen m pn = some r ∧ r.frags = [⟨x.bufAddr + x.hwHdrOffset, x.attrib.hdrlen,
      ((8 + x.pkt.length : ℕ) : ℤ)⟩] ∧
      r.lastTxcmdsz = x.attrib.hdrlen + x.attrib.ivLen + x.attrib.swIcvLen +
        ((8 + x.pkt.length : ℕ) : ℤ) := by
  have htake : x.pkt.length ≤ if isMcast x.attrib.ra = true then x.attrib.pktlen
      else u32 (x.mpduLen fragLen (rtwPutSnap x.attrib.etherType)) := by
    split
    · rename_i hm
      exact (hlen hm).le
    · rename_i hm
      exact h.resolve_left hm
  unfold coalesce
  rw [coalesceLoop]
  unfold coalesceFrag
  dsimp only
  rw [if_pos rfl, List.take_of_length_le htake, List.drop_length, if_pos (Or.inr rfl),
    length_rtwPutSnap]
  exact ⟨_, rfl, by push_cast; rfl, by push_cast; rfl⟩

namespace Adapter

variable {ι : Type} [DecidableEq ι] {s : Adapter ι} {fragLen : ℕ} {m : Mem} {x : DataFrame}

/-- There is a result for a frame with a station that is not fragmented. -/
theorem exists_coalesce {k : StaId} (hfrag : x.Unfragmented fragLen) (hk : x.attrib.psta = some k) :
    ∃ r, s.rtwXmitframeCoalesce fragLen m x = some r := by
  unfold rtwXmitframeCoalesce
  split
  · rename_i pkt psta hpkt hsta
    obtain ⟨hdr, hhdr⟩ := @exists_rtwMakeWlanhdr ι _ s ⟨m, x.start, x.attrib.toHdrAttrib⟩ k hk
    obtain ⟨c, hc, -⟩ := @XmitFrameBuf.coalesce_of_le (x.buf pkt) fragLen hdr.mem
      (hdr.adapter.sta psta).dot11txpn.toBitVec (fun _ => x.pktlen_eq pkt hpkt)
        (hfrag.imp_right fun h => h pkt hpkt)
    rw [hhdr, Option.bind_some]
    dsimp only
    split
    · exact ⟨_, rfl⟩
    · rw [hc]
      exact ⟨_, rfl⟩
  · exact ⟨_, rfl⟩

/-- A frame that can be built and is not fragmented gets the length that `xmitframe_need_length`
says. -/
theorem coalesce_of_buildable {k : StaId} (hb : s.Buildable x) (hfrag : x.Unfragmented fragLen)
    (hk : x.attrib.psta = some k) :
    ∃ r, s.rtwXmitframeCoalesce fragLen m x = some r ∧ r.attrib.nrFrags = 1 ∧
      r.attrib.lastTxcmdsz = x.attrib.needLength := by
  obtain ⟨pkt, hpkt⟩ := Option.ne_none_iff_exists'.mp hb.pkt
  obtain ⟨psta, hsta⟩ := Option.ne_none_iff_exists'.mp hb.sta
  obtain ⟨hdr, hhdr⟩ := @exists_rtwMakeWlanhdr ι _ s ⟨m, x.start, x.attrib.toHdrAttrib⟩ k hk
  have hok := (rtwMakeWlanhdr_status hhdr).mpr hb.role
  obtain ⟨c, hc, hfrags, hlast⟩ := @XmitFrameBuf.coalesce_of_le (x.buf pkt) fragLen hdr.mem
    (hdr.adapter.sta psta).dot11txpn.toBitVec (fun _ => x.pktlen_eq pkt hpkt)
      (hfrag.imp_right fun h => h pkt hpkt)
  have hneed : (x.attrib.needLength : ℤ) = c.lastTxcmdsz + x.attrib.tx.micLen := by
    have hpktlen : (x.buf pkt).pkt.length = x.attrib.pktlen := x.pktlen_eq pkt hpkt
    rw [hlast, hpktlen]
    unfold XmitAttrib.needLength TxAttrib.micLen
    change _ = (x.attrib.hdrlen + x.attrib.tx.ivLen + x.attrib.tx.swIcvLen + _ : ℤ) +
      ((if x.attrib.encrypt = .tkip then 8 else 0 : ℕ) : ℤ)
    dsimp only
    split_ifs
    · push_cast
      ring
    · push_cast
      ring
  unfold rtwXmitframeCoalesce
  rw [hpkt, hsta]
  dsimp only
  rw [hhdr, Option.bind_some]
  rw [if_neg hok, hc, Option.map_some]
  refine ⟨_, rfl, ?_⟩
  have hsame : s.SameTxKeys
    (hdr.adapter.updateSta psta fun st => { st with dot11txpn := ⟨c.pn⟩ }) :=
    (rtwMakeWlanhdr_same hhdr).trans (SameTxKeys.updateSta rfl rfl)
  generalize hdr.adapter.updateSta psta (fun st => { st with dot11txpn := ⟨c.pn⟩ }) = t at hsame ⊢
  obtain ⟨-, ⟨last, hattrib⟩, hcases⟩ := t.coalesceEnd_spec fragLen
    { { x.attrib with seqnum := hdr.attrib.seqnum, ampduEn := hdr.attrib.ampduEn } with
      lastTxcmdsz := c.lastTxcmdsz, nrFrags := c.nrFrags } x.start c.mem
  rcases hcases with ⟨⟨ht, j, hj, hkey⟩, -⟩ | ⟨-, -, hl⟩
  · rw [hsame.frameSta] at hj
    rw [hsame.txMicKey] at hkey
    exact absurd hkey (hb.micKey ht j hj)
  · have hsta' : t.frameSta x.attrib.toHdrAttrib = some k := by
      unfold frameSta
      rw [hk]
      rfl
    refine ⟨?_, (hl k hsta').trans hneed.symm⟩
    rw [hattrib]
    change c.nrFrags = 1
    unfold Coalesced.nrFrags
    rw [hfrags]
    rfl

end Adapter

end Rtl8188eu
