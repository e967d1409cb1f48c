import Rtl8188eu.Reorder

/-!
# The header of a data frame

`rtw_make_wlanhdr` writes the 802.11 header of a frame that is sent : frame control, the
addresses by the role of the device, QoS control, and the next sequence number of the TID.
It also decides whether the frame may be part of an aggregate (`numberFrame`).

The only state it changes is the record of the station the frame goes to
(`rtwMakeWlanhdr_adapter`).
-/

namespace Rtl8188eu

/-- `WLANHDR_OFFSET`. -/
def wlanhdrOffset : ℕ := 64

/-- `*(__le16 *)p |= cpu_to_le16(n)`. -/
def orLe16 (m : Mem) (p : ℤ) (n : ℕ) : Mem := m.write p (le16Bytes (m.le16 p ||| n))

/-- `SetFrameSubType`. -/
def setFrameSubType (m : Mem) (p : ℤ) (type : ℕ) : Mem :=
  orLe16 (m.write p (le16Bytes (m.le16 p &&& 0xff03))) p type

/-- `SetSeqNum`. -/
def setSeqNum (m : Mem) (p : ℤ) (num : ℕ) : Mem :=
  m.write (p + 22) (le16Bytes ((m.le16 (p + 22) &&& 0x000f) ||| (0xfff0 &&& (num <<< 4))))

/-- The fields of `struct pkt_attrib` that `rtw_make_wlanhdr` reads and writes. -/
structure HdrAttrib where
  subtype : ℕ
  hdrlen : ℕ
  encrypt : PrivacyAlgrthm
  priority : Fin 16
  ackPolicy : ℕ
  eosp : ℕ
  mdata : Bool
  dst : MacAddr
  src : MacAddr
  ra : MacAddr
  htEn : Bool
  ampduEn : Bool
  seqnum : ℕ
  psta : Option StaId

/-- The roles in which a device sends data frames. -/
inductive LinkRole
  | station | ap | adhoc
  deriving DecidableEq, Repr

/-- The role, by the state the code looks at first. -/
def linkRole (fwState : ℕ) : Option LinkRole :=
  if checkFwstate fwState wifiStationState then some .station
  else if checkFwstate fwState wifiApState then some .ap
  else if checkFwstate fwState wifiAdhocState || checkFwstate fwState wifiAdhocMasterState then
    some .adhoc
  else none

/-- A frame the header of which is to be written at an address. -/
structure TxFrame where
  mem : Mem
  hdr : ℤ
  attrib : HdrAttrib

/-- What `rtw_make_wlanhdr` leaves behind. -/
structure Wlanhdr (ι : Type) where
  status : Status
  mem : Mem
  attrib : HdrAttrib
  adapter : Adapter ι

/-- The sequence number of the next frame of a TID to a station, and whether the frame may be
aggregated. -/
def StaInfo.numberFrame (st : StaInfo) (a : HdrAttrib) : HdrAttrib × StaInfo :=
  let seqnum := ((st.txseqTid a.priority + 1) % 65536) &&& 0xfff
  let st := { st with txseqTid := Function.update st.txseqTid a.priority seqnum }
  let ampduEn :=
    if a.htEn && st.htpriv.ampduEnable && st.htpriv.aggEnableBitmap.getLsbD a.priority then true
    else a.ampduEn
  if ampduEn then
    let txSeq := st.baStartingSeqctrl a.priority
    if snLess seqnum txSeq then ({ a with seqnum := seqnum, ampduEn := false }, st)
    else
      let next := if seqnum = txSeq then (txSeq + 1) &&& 0xfff else (seqnum + 1) &&& 0xfff
      ({ a with seqnum := seqnum, ampduEn := true },
        { st with baStartingSeqctrl := Function.update st.baStartingSeqctrl a.priority next })
  else ({ a with seqnum := seqnum, ampduEn := false }, st)

namespace Adapter

variable {ι : Type}

/-- The station a frame goes to. -/
def headerSta (s : Adapter ι) (a : HdrAttrib) : Option StaId :=
  match a.psta with
  | some psta => some psta
  | none => if isMcast a.ra then s.rtwGetBcmcStainfo else s.rtwGetStainfo a.ra

/-- The bits for the distribution system and the three addresses. -/
def hdrAddrs (s : Adapter ι) (a : HdrAttrib) : LinkRole → ℕ × MacAddr × MacAddr × MacAddr
  | .station => (0x0100, s.mlmepriv.curBssid, a.src, a.dst)
  | .ap => (0x0200, a.dst, s.mlmepriv.curBssid, a.src)
  | .adhoc => (0, a.dst, a.src, s.mlmepriv.curBssid)

/-- Whether the header has a QoS-control field. An access point asks the station, and does not
look whether there is one. -/
def hdrQos (s : Adapter ι) (psta : Option StaId) : LinkRole → Option Bool
  | .station => some s.mlmepriv.qosOption
  | .ap => psta.map fun k => (s.sta k).qosOption
  | .adhoc => psta.map fun k => (s.sta k).qosOption

/-- The header of a data frame before its sequence number. -/
def dataHdr (s : Adapter ι) (m : Mem) (hdr : ℤ) (a : HdrAttrib) (role : LinkRole) (qos : Bool) :
    Mem :=
  let (ds, addr1, addr2, addr3) := s.hdrAddrs a role
  let m := orLe16 m hdr ds
  let m := m.write (getAddr1Ptr hdr) addr1.toList
  let m := m.write (getAddr2Ptr hdr) addr2.toList
  let m := m.write (getAddr3Ptr hdr) addr3.toList
  let m := if a.mdata then orLe16 m hdr 0x2000 else m
  let m := if a.encrypt = .noPrivacy then m else orLe16 m hdr 0x4000
  if qos then
    let qc := hdr + a.hdrlen - 2
    let m := if a.priority = 0 then m else orLe16 m qc (a.priority &&& 0xf)
    let m := orLe16 m qc ((a.eosp &&& 1) <<< 4)
    orLe16 m qc ((a.ackPolicy &&& 3) <<< 5)
  else m

/-- `rtw_make_wlanhdr`. There is no result when an access point or an ad-hoc device follows
the null pointer of a station it does not know. -/
def rtwMakeWlanhdr (s : Adapter ι) (f : TxFrame) : Option (Wlanhdr ι) :=
  let a := f.attrib
  let psta := s.headerSta a
  let m := f.mem.write f.hdr (List.replicate wlanhdrOffset 0)
  let m := setFrameSubType m f.hdr a.subtype
  if a.subtype &&& wifiDataType = 0 then some ⟨.success, m, a, s⟩
  else
    match linkRole s.mlmepriv.fwState with
    | none => some ⟨.fail, m, a, s⟩
    | some role =>
      (s.hdrQos psta role).map fun qos =>
        let m := s.dataHdr m f.hdr a role qos
        match psta with
        | none => ⟨.success, m, a, s⟩
        | some k =>
          let (a, st) := (s.sta k).numberFrame a
          ⟨.success, setSeqNum m f.hdr a.seqnum, a, s.updateSta k fun _ => st⟩

/-- `rtw_make_wlanhdr` gives the frame a sequence number of the TID of a station. -/
def Numbers (s : Adapter ι) (k : StaId) (tid : Fin 16) (a : HdrAttrib) : Prop :=
  a.subtype &&& wifiDataType ≠ 0 ∧ linkRole s.mlmepriv.fwState ≠ none ∧
    s.headerSta a = some k ∧ a.priority = tid

instance (s : Adapter ι) (k : StaId) (tid : Fin 16) (a : HdrAttrib) :
    Decidable (s.Numbers k tid a) :=
  inferInstanceAs (Decidable (_ ∧ _ ∧ _ ∧ _))

/-- A frame that gets a number changes the record of its station as `numberFrame` says. -/
theorem rtwMakeWlanhdr_of_numbers {s : Adapter ι} {f : TxFrame} {k : StaId} {tid : Fin 16}
    (h : s.Numbers k tid f.attrib) :
    ∃ r, s.rtwMakeWlanhdr f = some r ∧ r.status = .success ∧
      r.attrib = ((s.sta k).numberFrame f.attrib).1 ∧
      r.adapter = s.updateSta k fun st => (st.numberFrame f.attrib).2 := by
  obtain ⟨hdata, hrole, hsta, -⟩ := h
  obtain ⟨role, hr⟩ := Option.ne_none_iff_exists'.mp hrole
  have hqos : ∃ qos, s.hdrQos (some k) role = some qos := by
    cases role
    · exact ⟨_, rfl⟩
    · exact ⟨_, rfl⟩
    · exact ⟨_, rfl⟩
  obtain ⟨qos, hq⟩ := hqos
  unfold rtwMakeWlanhdr
  dsimp only
  rw [if_neg hdata, hr, hsta]
  dsimp only
  rw [hq]
  exact ⟨_, rfl, rfl, rfl, rfl⟩

/-- A frame that gets no number changes nothing, and a frame to another station, or of another
TID, is numbered there. -/
theorem rtwMakeWlanhdr_adapter {s : Adapter ι} {f : TxFrame} {r : Wlanhdr ι}
    (h : s.rtwMakeWlanhdr f = some r) :
    r.adapter = s ∨ ∃ k, s.Numbers k f.attrib.priority f.attrib ∧
      r.adapter = s.updateSta k fun st => (st.numberFrame f.attrib).2 := by
  by_cases hn : ∃ k, s.Numbers k f.attrib.priority f.attrib
  · obtain ⟨k, hk⟩ := hn
    obtain ⟨r', hr', -, -, ha⟩ := rtwMakeWlanhdr_of_numbers hk
    obtain rfl := Option.some.inj (hr'.symm.trans h)
    exact Or.inr ⟨k, hk, ha⟩
  · left
    unfold rtwMakeWlanhdr at h
    dsimp only at h
    split at h
    · cases h
      rfl
    · rename_i hdata
      split at h
      · cases h
        rfl
      · rename_i role hr
        obtain ⟨qos, -, rfl⟩ := Option.map_eq_some_iff.mp h
        cases hsta : s.headerSta f.attrib with
        | none => rfl
        | some k =>
          refine absurd ⟨k, hdata, ?_, hsta, rfl⟩ hn
          rw [hr]
          exact Option.some_ne_none role

end Adapter

/-! ## What numbering a frame does to the record -/

namespace StaInfo

variable (st : StaInfo) (a : HdrAttrib)

/-- The frame asks for aggregation, and the TID has an agreement. -/
def AggWanted : Prop :=
  (a.htEn = true ∧ st.htpriv.ampduEnable = true ∧
    st.htpriv.aggEnableBitmap.getLsbD a.priority = true) ∨ a.ampduEn = true

theorem numberFrame_of_not_aggWanted (h : ¬ st.AggWanted a) :
    st.numberFrame a =
      let seqnum := (st.txseqTid a.priority + 1) % 4096
      ({ a with seqnum := seqnum, ampduEn := false },
        { st with txseqTid := Function.update st.txseqTid a.priority seqnum }) := by
  have hseq : ((st.txseqTid a.priority + 1) % 65536) &&& 0xfff
      = (st.txseqTid a.priority + 1) % 4096 := by
    rw [Nat.and_two_pow_sub_one_eq_mod _ 12]
    omega
  unfold AggWanted at h
  push Not at h
  obtain ⟨h1, h2⟩ := h
  have hoff : (if (a.htEn && st.htpriv.ampduEnable &&
      st.htpriv.aggEnableBitmap.getLsbD a.priority) = true then true else a.ampduEn) = false := by
    rw [if_neg]
    · simpa using h2
    · simp only [Bool.and_eq_true]
      rintro ⟨⟨h3, h4⟩, h5⟩
      exact h1 h3 h4 h5
  unfold numberFrame
  dsimp only
  rw [hseq, hoff]
  rfl

/-- The start of the agreement moves behind a frame that is not before it. -/
theorem numberFrame_of_aggWanted (h : st.AggWanted a) :
    st.numberFrame a =
      let seqnum := (st.txseqTid a.priority + 1) % 4096
      let st' := { st with txseqTid := Function.update st.txseqTid a.priority seqnum }
      if snLess seqnum (st.baStartingSeqctrl a.priority) = true then
        ({ a with seqnum := seqnum, ampduEn := false }, st')
      else
        let next := (seqnum + 1) % 4096
        ({ a with seqnum := seqnum, ampduEn := true },
          { st' with
            baStartingSeqctrl := Function.update st.baStartingSeqctrl a.priority next }) := by
  have hseq : ((st.txseqTid a.priority + 1) % 65536) &&& 0xfff
      = (st.txseqTid a.priority + 1) % 4096 := by
    rw [Nat.and_two_pow_sub_one_eq_mod _ 12]
    omega
  have hon : (if (a.htEn && st.htpriv.ampduEnable &&
      st.htpriv.aggEnableBitmap.getLsbD a.priority) = true then true else a.ampduEn) = true := by
    rcases h with ⟨h1, h2, h3⟩ | h
    · rw [h1, h2, h3]
      rfl
    · rw [h, ite_self]
  have hnext : ∀ txSeq n : ℕ, (if n = txSeq then (txSeq + 1) &&& 0xfff else (n + 1) &&& 0xfff)
      = (n + 1) % 4096 := by
    intro txSeq n
    rw [Nat.and_two_pow_sub_one_eq_mod _ 12, Nat.and_two_pow_sub_one_eq_mod _ 12]
    split
    · rename_i h
      rw [h]
    · rfl
  unfold numberFrame
  dsimp only
  rw [hseq, hon, if_pos rfl, hnext]

end StaInfo

end Rtl8188eu
