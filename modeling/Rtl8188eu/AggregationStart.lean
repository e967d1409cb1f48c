import Mathlib.Data.List.GetD
import Rtl8188eu.Aggregation
import Rtl8188eu.WlanHeader

/-!
# The start of transmit aggregation

An ADDBA request announces the sequence number of the next frame as the start of the
agreement, and the device keeps that number. More frames are sent before the response comes.
After it `rtw_make_wlanhdr` aggregates a frame unless `SN_LESS` puts its number before the
start, and moves the start behind a frame it aggregates.

The start does not move while frames are sent without an agreement, so a response after 2048
frames finds the next number behind the start. The frames are then sent one by one until the
numbers have wrapped around. `aggregationResumes_iff` says for how many frames this happens.
-/

namespace Rtl8188eu

open Runs

/-- The sequence numbers `ns` count on from `q`, modulo 4096, up to `q'`. -/
def CountsOn : ℕ → List ℕ → ℕ → Prop
  | q, [], q' => q = q'
  | q, n :: ns, q' => n = (q + 1) % 4096 ∧ CountsOn n ns q'

theorem CountsOn.append : ∀ {ns ms : List ℕ} {q r t : ℕ},
    CountsOn q ns r → CountsOn r ms t → CountsOn q (ns ++ ms) t
  | [], _, _, _, _, rfl, h => h
  | _ :: _, _, _, _, _, ⟨h1, h2⟩, h => ⟨h1, h2.append h⟩

theorem CountsOn.last_mod : ∀ {ns : List ℕ} {q r : ℕ}, CountsOn q ns r →
    r % 4096 = (q + ns.length) % 4096
  | [], _, _, rfl => rfl
  | n :: ns, q, r, ⟨h1, h2⟩ => by
    rw [h2.last_mod, List.length_cons, h1]
    omega

/-- What a station keeps about the frames of a TID that are sent to it. -/
@[ext]
structure TxTid where
  txseq : ℕ
  start : ℕ
  htpriv : HtPriv

/-- The fields after a frame that asks for aggregation. -/
theorem StaInfo.fields_numberFrame_of_aggWanted (st : StaInfo) (a : HdrAttrib)
    (h : st.AggWanted a) :
    let seqnum := (st.txseqTid a.priority + 1) % 4096
    let start := st.baStartingSeqctrl a.priority
    (st.numberFrame a).1.seqnum = seqnum ∧
      (st.numberFrame a).1.ampduEn = !snLess seqnum start ∧
      (st.numberFrame a).2.txseqTid a.priority = seqnum ∧
      (st.numberFrame a).2.baStartingSeqctrl a.priority =
        (if snLess seqnum start = true then start else (seqnum + 1) % 4096) ∧
      (st.numberFrame a).2.htpriv = st.htpriv := by
  intro seqnum start
  have hnum := st.numberFrame_of_aggWanted a h
  dsimp only at hnum
  by_cases hless : snLess seqnum start = true
  · rw [if_pos hless] at hnum
    simp [hnum, hless, seqnum, start]
  · rw [if_neg hless] at hnum
    simp [hnum, hless, seqnum]

namespace Adapter

variable {ι : Type}

/-- The transmit state of a TID of a station. -/
def txTid (s : Adapter ι) (k : StaId) (tid : Fin 16) : TxTid where
  txseq := (s.sta k).txseqTid tid
  start := (s.sta k).baStartingSeqctrl tid
  htpriv := (s.sta k).htpriv

/-- One frame through `rtw_make_wlanhdr`. -/
def hdrStep (s : Adapter ι) (f : TxFrame) : Option (Adapter ι) :=
  (s.rtwMakeWlanhdr f).map Wlanhdr.adapter

/-- The frames of a TID to a station, as `rtw_make_wlanhdr` leaves their attributes. -/
def framesOf (k : StaId) (tid : Fin 16) : Adapter ι → List TxFrame → List HdrAttrib
  | _, [] => []
  | s, f :: fs =>
    match s.rtwMakeWlanhdr f with
    | none => []
    | some r =>
      if s.Numbers k tid f.attrib then r.attrib :: framesOf k tid r.adapter fs
      else framesOf k tid r.adapter fs

/-- The attributes are as `update_attrib_phy_info` sets them. -/
def Attributed (k : StaId) (tid : Fin 16) (s : Adapter ι) (f : TxFrame) : Prop :=
  s.Numbers k tid f.attrib →
    f.attrib.ampduEn = false ∧ f.attrib.htEn = (s.sta k).htpriv.htOption

/-! ## One frame -/

theorem txTid_updateSta (s : Adapter ι) (j k : StaId) (tid : Fin 16) (g : StaInfo → StaInfo) :
    (s.updateSta j g).txTid k tid =
      if k = j then ⟨(g (s.sta k)).txseqTid tid, (g (s.sta k)).baStartingSeqctrl tid,
        (g (s.sta k)).htpriv⟩
      else s.txTid k tid := by
  unfold txTid updateSta
  by_cases h : k = j
  · subst h
    simp
  · simp [h]

/-- A number for another TID leaves the TID alone. -/
theorem numberFrame_of_ne (st : StaInfo) (a : HdrAttrib) {tid : Fin 16} (h : tid ≠ a.priority) :
    (st.numberFrame a).2.txseqTid tid = st.txseqTid tid ∧
      (st.numberFrame a).2.baStartingSeqctrl tid = st.baStartingSeqctrl tid ∧
      (st.numberFrame a).2.htpriv = st.htpriv := by
  by_cases hw : st.AggWanted a
  · have hnum := st.numberFrame_of_aggWanted a hw
    dsimp only at hnum
    split_ifs at hnum
    · simp [hnum, h]
    · simp [hnum, h]
  · simp [st.numberFrame_of_not_aggWanted a hw, h]

theorem txTid_of_not_numbers {s : Adapter ι} {f : TxFrame} {r : Wlanhdr ι} {k : StaId}
    {tid : Fin 16} (h : s.rtwMakeWlanhdr f = some r) (hn : ¬ s.Numbers k tid f.attrib) :
    r.adapter.txTid k tid = s.txTid k tid := by
  rcases rtwMakeWlanhdr_adapter h with ha | ⟨j, hj, ha⟩
  · rw [ha]
  · rw [ha, txTid_updateSta]
    split
    · rename_i hkj
      subst hkj
      have htid : tid ≠ f.attrib.priority := fun heq => hn (heq ▸ hj)
      obtain ⟨h1, h2, h3⟩ := numberFrame_of_ne (s.sta k) f.attrib htid
      rw [h1, h2, h3]
      rfl
    · rfl

/-- A frame of a TID without an agreement is not aggregated, and the start stays. -/
theorem frame_of_not_aggEnabled {s : Adapter ι} {f : TxFrame} {r : Wlanhdr ι} {k : StaId}
    {tid : Fin 16} (h : s.rtwMakeWlanhdr f = some r) (hn : s.Numbers k tid f.attrib)
    (ha : Attributed k tid s f)
    (hoff : (s.txTid k tid).htpriv.aggEnableBitmap.getLsbD tid = false) :
    r.attrib.seqnum = ((s.txTid k tid).txseq + 1) % 4096 ∧ r.attrib.ampduEn = false ∧
      r.adapter.txTid k tid = { s.txTid k tid with txseq := r.attrib.seqnum } := by
  obtain ⟨r', hr', -, hattr, hadapt⟩ := rtwMakeWlanhdr_of_numbers hn
  obtain rfl := Option.some.inj (hr'.symm.trans h)
  obtain ⟨hamp, -⟩ := ha hn
  obtain rfl := hn.2.2.2
  have hw : ¬ (s.sta k).AggWanted f.attrib := by
    rintro (⟨-, -, h3⟩ | h3)
    · exact Bool.false_ne_true (hoff.symm.trans h3)
    · exact Bool.false_ne_true (hamp.symm.trans h3)
  rw [hattr, hadapt, txTid_updateSta, if_pos rfl, StaInfo.numberFrame_of_not_aggWanted _ _ hw]
  refine ⟨rfl, rfl, ?_⟩
  ext1
  · exact Function.update_self _ _ _
  · rfl
  · rfl

/-- A frame of a TID with an agreement is aggregated unless its number is before the start,
and then the start is the next number. -/
theorem frame_of_aggEnabled {s : Adapter ι} {f : TxFrame} {r : Wlanhdr ι} {k : StaId}
    {tid : Fin 16} (h : s.rtwMakeWlanhdr f = some r) (hn : s.Numbers k tid f.attrib)
    (ha : Attributed k tid s f)
    (hon : (s.txTid k tid).htpriv.aggEnableBitmap.getLsbD tid = true)
    (hht : (s.txTid k tid).htpriv.htOption = true)
    (hen : (s.txTid k tid).htpriv.ampduEnable = true) :
    r.attrib.seqnum = ((s.txTid k tid).txseq + 1) % 4096 ∧
      r.attrib.ampduEn = !snLess r.attrib.seqnum (s.txTid k tid).start ∧
      r.adapter.txTid k tid = { s.txTid k tid with
        txseq := r.attrib.seqnum
        start :=
          if snLess r.attrib.seqnum (s.txTid k tid).start = true then (s.txTid k tid).start
          else (r.attrib.seqnum + 1) % 4096 } := by
  obtain ⟨r', hr', -, hattr, hadapt⟩ := rtwMakeWlanhdr_of_numbers hn
  obtain rfl := Option.some.inj (hr'.symm.trans h)
  obtain ⟨-, hhtEn⟩ := ha hn
  obtain rfl := hn.2.2.2
  have hw : (s.sta k).AggWanted f.attrib := Or.inl ⟨hhtEn.trans hht, hen, hon⟩
  obtain ⟨h1, h2, h3, h4, h5⟩ := (s.sta k).fields_numberFrame_of_aggWanted f.attrib hw
  rw [hattr, hadapt, txTid_updateSta, if_pos rfl, h1, h2, h3, h4, h5]
  exact ⟨rfl, rfl, rfl⟩

/-! ## Many frames -/

theorem snLess_self (n : ℕ) : snLess n n = false := by
  rw [snLess, Nat.add_sub_cancel_left]
  decide

/-- Frames of a TID without an agreement are counted, and nothing else happens. -/
theorem framesOf_of_not_aggEnabled {k : StaId} {tid : Fin 16} :
    ∀ {fs : List TxFrame} {s t : Adapter ι}, runM hdrStep s fs = some t →
      AlongM hdrStep (Attributed k tid) s fs →
      (s.txTid k tid).htpriv.aggEnableBitmap.getLsbD tid = false →
      (∀ a ∈ framesOf k tid s fs, a.ampduEn = false) ∧
        CountsOn (s.txTid k tid).txseq ((framesOf k tid s fs).map HdrAttrib.seqnum)
          (t.txTid k tid).txseq ∧
        t.txTid k tid = { s.txTid k tid with txseq := (t.txTid k tid).txseq }
  | [], s, t, hrun, _, _ => by
    cases hrun
    exact ⟨fun _ ha => absurd ha List.not_mem_nil, rfl, rfl⟩
  | f :: fs, s, t, hrun, ⟨hf, hfs⟩, hoff => by
    obtain ⟨u, hu, hrun⟩ := runM_cons.mp hrun
    have halong := hfs u hu
    obtain ⟨r, hr, rfl⟩ := Option.map_eq_some_iff.mp hu
    by_cases hn : s.Numbers k tid f.attrib
    · obtain ⟨hseq, hamp, hview⟩ := frame_of_not_aggEnabled hr hn hf hoff
      have hoff' : (r.adapter.txTid k tid).htpriv.aggEnableBitmap.getLsbD tid = false := by
        rw [hview]
        exact hoff
      obtain ⟨h1, h2, h3⟩ := framesOf_of_not_aggEnabled hrun halong hoff'
      rw [framesOf, hr]
      dsimp only
      rw [if_pos hn]
      refine ⟨?_, ⟨hseq, ?_⟩, ?_⟩
      · intro a ha
        rcases List.mem_cons.mp ha with rfl | ha
        · exact hamp
        · exact h1 a ha
      · rw [hview] at h2
        exact h2
      · rw [hview] at h3
        exact h3
    · have hview := txTid_of_not_numbers hr hn
      obtain ⟨h1, h2, h3⟩ := framesOf_of_not_aggEnabled hrun halong (hview ▸ hoff)
      rw [framesOf, hr]
      dsimp only
      rw [if_neg hn]
      rw [hview] at h2 h3
      exact ⟨h1, h2, h3⟩

/-- Frames of a TID with an agreement are counted, and they are all aggregated if the first
one is. -/
theorem framesOf_of_aggEnabled {k : StaId} {tid : Fin 16} :
    ∀ {fs : List TxFrame} {s t : Adapter ι}, runM hdrStep s fs = some t →
      AlongM hdrStep (Attributed k tid) s fs →
      (s.txTid k tid).htpriv.aggEnableBitmap.getLsbD tid = true →
      (s.txTid k tid).htpriv.htOption = true → (s.txTid k tid).htpriv.ampduEnable = true →
      CountsOn (s.txTid k tid).txseq ((framesOf k tid s fs).map HdrAttrib.seqnum)
          (t.txTid k tid).txseq ∧
        ((∀ a ∈ framesOf k tid s fs, a.ampduEn = true) ↔
          framesOf k tid s fs = [] ∨
            snLess (((s.txTid k tid).txseq + 1) % 4096) (s.txTid k tid).start = false)
  | [], s, t, hrun, _, _, _, _ => by
    cases hrun
    exact ⟨rfl, iff_of_true (fun _ ha => absurd ha List.not_mem_nil) (Or.inl rfl)⟩
  | f :: fs, s, t, hrun, ⟨hf, hfs⟩, hon, hht, hen => by
    obtain ⟨u, hu, hrun⟩ := runM_cons.mp hrun
    have halong := hfs u hu
    obtain ⟨r, hr, rfl⟩ := Option.map_eq_some_iff.mp hu
    by_cases hn : s.Numbers k tid f.attrib
    · obtain ⟨hseq, hamp, hview⟩ := frame_of_aggEnabled hr hn hf hon hht hen
      have hpriv : (r.adapter.txTid k tid).htpriv = (s.txTid k tid).htpriv := by rw [hview]
      obtain ⟨h1, h2⟩ := framesOf_of_aggEnabled hrun halong (hpriv ▸ hon) (hpriv ▸ hht)
        (hpriv ▸ hen)
      have htx : (r.adapter.txTid k tid).txseq = r.attrib.seqnum := by rw [hview]
      rw [framesOf, hr]
      dsimp only
      rw [if_pos hn]
      refine ⟨⟨hseq, htx ▸ h1⟩, ?_⟩
      rw [← hseq]
      constructor
      · intro hall
        have hfirst := hall r.attrib List.mem_cons_self
        rw [hamp] at hfirst
        exact Or.inr (Bool.not_eq_true' _ ▸ hfirst)
      · rintro (hnil | hless)
        · exact absurd hnil (List.cons_ne_nil _ _)
        · -- the start is now the next number
          have hstart : (r.adapter.txTid k tid).start = (r.attrib.seqnum + 1) % 4096 := by
            rw [hview]
            exact if_neg (by rw [hless]; decide)
          have hrest := h2.mpr (Or.inr (by rw [htx, hstart]; exact snLess_self _))
          intro a ha
          rcases List.mem_cons.mp ha with rfl | ha
          · rw [hamp, hless]
            rfl
          · exact hrest a ha
    · have hview := txTid_of_not_numbers hr hn
      obtain ⟨h1, h2⟩ := framesOf_of_aggEnabled hrun halong (hview ▸ hon) (hview ▸ hht)
        (hview ▸ hen)
      rw [framesOf, hr]
      dsimp only
      rw [if_neg hn]
      rw [hview] at h1 h2
      exact ⟨h1, h2⟩

/-! ## How many frames -/

theorem hwaddr_numberFrame (st : StaInfo) (a : HdrAttrib) :
    (st.numberFrame a).2.hwaddr = st.hwaddr := by
  by_cases hw : st.AggWanted a
  · have hnum := st.numberFrame_of_aggWanted a hw
    dsimp only at hnum
    split_ifs at hnum <;> rw [hnum]
  · rw [st.numberFrame_of_not_aggWanted a hw]

theorem htpriv_numberFrame (st : StaInfo) (a : HdrAttrib) :
    (st.numberFrame a).2.htpriv = st.htpriv := by
  by_cases hw : st.AggWanted a
  · exact (st.fields_numberFrame_of_aggWanted a hw).2.2.2.2
  · rw [st.numberFrame_of_not_aggWanted a hw]

/-- The addresses and the link are the same, and the stations have the same agreements. -/
structure SameLink (s s' : Adapter ι) : Prop where
  macAddr : s'.macAddr = s.macAddr
  mlmepriv : s'.mlmepriv = s.mlmepriv
  mlmeext : s'.mlmeext = s.mlmeext
  stainfo : ∀ x, s'.rtwGetStainfo x = s.rtwGetStainfo x
  htpriv : ∀ k, (s'.sta k).htpriv = (s.sta k).htpriv

theorem sameLink_rtwMakeWlanhdr {s : Adapter ι} {f : TxFrame} {r : Wlanhdr ι}
    (h : s.rtwMakeWlanhdr f = some r) : SameLink s r.adapter := by
  rcases rtwMakeWlanhdr_adapter h with ha | ⟨j, -, ha⟩
  · rw [ha]
    exact ⟨rfl, rfl, rfl, fun _ => rfl, fun _ => rfl⟩
  · have hsta : ∀ i, (r.adapter.sta i).hwaddr = (s.sta i).hwaddr ∧
        (r.adapter.sta i).htpriv = (s.sta i).htpriv := by
      intro i
      rw [ha]
      rcases eq_or_ne i j with rfl | hij
      · simp [updateSta, hwaddr_numberFrame, htpriv_numberFrame]
      · simp [updateSta, hij]
    refine ⟨by rw [ha]; rfl, by rw [ha]; rfl, by rw [ha]; rfl, fun x => ?_, fun i => (hsta i).2⟩
    unfold rtwGetStainfo
    simp only [fun i => (hsta i).1]
    rw [ha]
    rfl

theorem SameLink.trans {s t u : Adapter ι} (h : SameLink s t) (h' : SameLink t u) :
    SameLink s u :=
  ⟨h'.macAddr.trans h.macAddr, h'.mlmepriv.trans h.mlmepriv, h'.mlmeext.trans h.mlmeext,
    fun x => (h'.stainfo x).trans (h.stainfo x), fun i => (h'.htpriv i).trans (h.htpriv i)⟩

/-- A frame goes to the same station. -/
theorem SameLink.numbers {s t : Adapter ι} (h : SameLink s t) (k : StaId) (tid : Fin 16)
    (a : HdrAttrib) : t.Numbers k tid a ↔ s.Numbers k tid a := by
  unfold Numbers headerSta rtwGetBcmcStainfo
  rw [h.mlmepriv, h.stainfo, h.stainfo]

theorem SameLink.hears {s t : Adapter ι} (h : SameLink s t) {m : Mem} {p : ℤ} {k : StaId}
    (hs : s.Hears m p k) : t.Hears m p k where
  ra := hs.ra.trans h.macAddr.symm
  linkUp := by
    unfold baLinkUp
    rw [h.mlmeext]
    exact hs.linkUp
  known := (h.stainfo _).trans hs.known
  category := hs.category
  htEnable := by
    rw [h.mlmeext]
    exact hs.htEnable

/-- The number of frames of a TID among the frames that are sent. -/
theorem length_framesOf {k : StaId} {tid : Fin 16} :
    ∀ {fs : List TxFrame} {s t : Adapter ι}, runM hdrStep s fs = some t →
      (framesOf k tid s fs).length = fs.countP fun f => s.Numbers k tid f.attrib
  | [], _, _, _ => rfl
  | f :: fs, s, t, hrun => by
    obtain ⟨u, hu, hrun⟩ := runM_cons.mp hrun
    obtain ⟨r, hr, rfl⟩ := Option.map_eq_some_iff.mp hu
    have hlen : (framesOf k tid r.adapter fs).length = _ := length_framesOf hrun
    simp only [(sameLink_rtwMakeWlanhdr hr).numbers] at hlen
    rw [framesOf, hr, List.countP_cons]
    dsimp only
    by_cases hn : s.Numbers k tid f.attrib
    · rw [if_pos hn, List.length_cons, hlen, if_pos (decide_eq_true hn)]
    · rw [if_neg hn, hlen, if_neg (by simpa using hn), add_zero]

/-! ## The request and the response -/

/-- `issue_action_BA` keeps the number behind the last frame as the start. -/
theorem txTid_issueActionBA (status : ℕ) {s : Adapter ι} {raddr : MacAddr} {k : StaId}
    (hmem : s.memAvail 0 = true) (hk : s.rtwGetStainfo raddr = some k) :
    let tid := Fin.ofNat 16 (status &&& 0x07)
    (s.issueActionBA raddr .addbaReq status).txTid k tid =
      { s.txTid k tid with start := (s.txTid k tid).txseq % 4096 + 1 } := by
  have hand : ∀ n : ℕ, n &&& 0xfff = n % 4096 := fun n => Nat.and_two_pow_sub_one_eq_mod n 12
  intro tid
  have hkeep : ∀ u : Adapter ι, u.rtwGetStainfo raddr = some k → u.txTid k tid = s.txTid k tid →
      (u.keepStartSeq raddr status).txTid k tid =
        { s.txTid k tid with start := (s.txTid k tid).txseq % 4096 + 1 } := by
    intro u hu hview
    unfold keepStartSeq
    dsimp only
    rw [hu]
    dsimp only
    rw [txTid_updateSta, if_pos rfl, ← hview]
    ext1
    · rfl
    · exact (Function.update_self _ _ _).trans (congrArg (· + 1) (hand _))
    · rfl
  unfold issueActionBA takeMem
  dsimp only
  rw [if_pos hmem]
  exact hkeep _ hk rfl

/-- The starting sequence number in an ADDBA request. -/
def reqStart (f : List UInt8) : ℕ := ((f.getD 31 0).toNat + 256 * (f.getD 32 0).toNat) >>> 4

theorem le16Bytes_shiftLeft_four (n : ℕ) :
    ((UInt8.ofNat (n <<< 4)).toNat + 256 * (UInt8.ofNat (n <<< 4 / 256)).toNat) >>> 4
      = n % 4096 := by
  rw [UInt8.toNat_ofNat', UInt8.toNat_ofNat', Nat.shiftRight_eq_div_pow, Nat.shiftLeft_eq]
  omega

/-- The request announces the number behind the last frame. -/
theorem reqStart_issueActionBA (status : ℕ) {s : Adapter ι} {raddr : MacAddr} {k : StaId}
    (hmem : s.memAvail 0 = true) (hk : s.rtwGetStainfo raddr = some k) :
    ((s.issueActionBA raddr .addbaReq status).mgntSent.getLast?).map reqStart =
      some (((s.txTid k (Fin.ofNat 16 (status &&& 0x07))).txseq + 1) % 4096) := by
  have hand : ∀ n : ℕ, n &&& 0xfff = n % 4096 := fun n => Nat.and_two_pow_sub_one_eq_mod n 12
  have hbody : ∀ u : Adapter ι, u.rtwGetStainfo raddr = some k → u.sta = s.sta →
      ∀ hdr : List UInt8, hdr.length = 26 →
        reqStart (hdr ++ u.addbaReqBody raddr status) =
          ((s.txTid k (Fin.ofNat 16 (status &&& 0x07))).txseq + 1) % 4096 := by
    intro u hu hsta hdr hlen
    unfold addbaReqBody addbaStartSeq
    dsimp only
    rw [hu, hsta]
    unfold reqStart
    rw [← List.append_assoc, List.getD_append_right _ _ _ _ (by simp [hlen, le16Bytes]),
      List.getD_append_right _ _ _ _ (by simp [hlen, le16Bytes])]
    have h31 : 31 - (hdr ++ ([u.mlmeext.dialogToken] ++ le16Bytes
      (0x1002 ||| (status &&& 0xf) <<< 2)
        ++ le16Bytes 5000)).length = 0 := by simp [hlen, le16Bytes]
    have h32 : 32 - (hdr ++ ([u.mlmeext.dialogToken] ++ le16Bytes
      (0x1002 ||| (status &&& 0xf) <<< 2)
        ++ le16Bytes 5000)).length = 1 := by simp [hlen, le16Bytes]
    rw [h31, h32]
    refine (le16Bytes_shiftLeft_four _).trans ?_
    rw [hand]
    exact Nat.mod_add_mod _ _ _
  have hhdr : ∀ u : Adapter ι,
      (u.actionHdr raddr ++ [wlanCategoryBack, BaAction.addbaReq.code]).length = 26 := by
    intro u
    unfold actionHdr
    simp [le16Bytes]
  unfold issueActionBA takeMem
  dsimp only
  rw [if_pos hmem]
  dsimp only
  rw [List.getLast?_append, List.getLast?_singleton, Option.some_or, Option.map_some]
  rw [Option.some.injEq]
  apply hbody
  · exact hk
  · rfl
  · exact hhdr _

theorem txTid_onActionBack {s : Adapter ι} {m : Mem} {p : ℤ} {k : StaId} {tid : Fin 8}
    (h : AggAccepted k tid s (.rx m p)) (t : Fin 16) :
    (s.onActionBack m p).txTid k t =
      { s.txTid k t with htpriv := (s.sta k).htpriv.enableAgg tid } := by
  obtain ⟨hh, ha, hst, htid⟩ := h
  rw [@onActionBack_of_hears ι s m p k hh .addbaResp ha]
  dsimp only
  unfold onAddbaResp
  dsimp only
  rw [if_pos hst, txTid_updateSta, if_pos rfl, htid]
  rfl

end Adapter

/-! ## The agreement -/

open Adapter

/-- A run of the transmit path around an agreement : frames, the request for the TID, more
frames, the response that sets the bit, and frames after it. -/
structure AddbaRun (ι : Type) (k : StaId) (tid : Fin 8) where
  start : Adapter ι
  before : List TxFrame
  /-- The state that the request meets. -/
  asking : Adapter ι
  raddr : MacAddr
  between : List TxFrame
  /-- The state that the response meets. -/
  answered : Adapter ι
  m : Mem
  p : ℤ
  after : List TxFrame
  last : Adapter ι
  runBefore : runM hdrStep start before = some asking
  memAvail : asking.memAvail 0 = true
  known : asking.rtwGetStainfo raddr = some k
  runBetween : runM hdrStep (asking.issueActionBA raddr .addbaReq tid) between = some answered
  accepted : AggAccepted k tid answered (.rx m p)
  runAfter : runM hdrStep (answered.onActionBack m p) after = some last
  attributedBefore : AlongM hdrStep (Attributed k (tid.castLE (by decide))) start before
  attributedBetween : AlongM hdrStep (Attributed k (tid.castLE (by decide)))
    (asking.issueActionBA raddr .addbaReq tid) between
  attributedAfter : AlongM hdrStep (Attributed k (tid.castLE (by decide)))
    (answered.onActionBack m p) after
  /-- The device asks stations with HT and aggregation only, for a TID without an agreement. -/
  htOption : (start.sta k).htpriv.htOption = true
  ampduEnable : (start.sta k).htpriv.ampduEnable = true
  noAgreement : ¬ start.AggEnabled k tid

namespace AddbaRun

variable {ι : Type} {k : StaId} {tid : Fin 8} (r : AddbaRun ι k tid)

/-- The TID, as an index of the tables of a station. -/
abbrev wideTid (_ : AddbaRun ι k tid) : Fin 16 := tid.castLE LiteralIndex.tids_le_sixteen

/-- The state after the request. -/
def asked : Adapter ι := r.asking.issueActionBA r.raddr .addbaReq tid

/-- The state after the response. -/
def agreed : Adapter ι := r.answered.onActionBack r.m r.p

def framesBefore : List HdrAttrib := framesOf k r.wideTid r.start r.before

def framesBetween : List HdrAttrib := framesOf k r.wideTid r.asked r.between

def framesAfter : List HdrAttrib := framesOf k r.wideTid r.agreed r.after

/-- How many frames of the TID are sent between the request and the response. -/
def countBetween : ℕ := r.between.countP fun f => r.asked.Numbers k r.wideTid f.attrib

/-- How many frames of the TID are sent after the response. -/
def countAfter : ℕ := r.after.countP fun f => r.agreed.Numbers k r.wideTid f.attrib

/-- The frames of the TID are counted one by one, the request announces the number of the next
frame, no frame before it is aggregated, and every frame after the response is. -/
structure AggregationResumes : Prop where
  counted : ∃ q, CountsOn (r.start.txTid k r.wideTid).txseq
    ((r.framesBefore ++ r.framesBetween ++ r.framesAfter).map HdrAttrib.seqnum) q
  announced : ∀ a ∈ (r.framesBetween ++ r.framesAfter).head?,
    r.asked.mgntSent.getLast?.map reqStart = some a.seqnum
  noneBefore : ∀ a ∈ r.framesBefore, a.ampduEn = false
  resumed : ∀ a ∈ r.framesAfter, a.ampduEn = true

theorem ofNat_tid : Fin.ofNat 16 ((tid : ℕ) &&& 0x07) = tid.castLE (by decide) := by
  revert tid
  decide

/-- The next number is before the start when bit 11 of the count is set. -/
theorem snLess_start_iff {q t n : ℕ} (h : t % 4096 = (q + n) % 4096) :
    snLess ((t + 1) % 4096) (q % 4096 + 1) = false ↔ n % 4096 < 2048 := by
  rw [snLess, Nat.testBit_eq_decide_div_mod_eq, decide_eq_false_iff_not]
  omega

/-- The transmit state of the TID when the request is sent. -/
theorem beforeRequest :
    (∀ a ∈ r.framesBefore, a.ampduEn = false) ∧
      CountsOn (r.start.txTid k r.wideTid).txseq (r.framesBefore.map HdrAttrib.seqnum)
        (r.asking.txTid k r.wideTid).txseq ∧
      r.asked.txTid k r.wideTid =
        ⟨(r.asking.txTid k r.wideTid).txseq, (r.asking.txTid k r.wideTid).txseq % 4096 + 1,
          (r.start.sta k).htpriv⟩ := by
  have hoff : (r.start.txTid k r.wideTid).htpriv.aggEnableBitmap.getLsbD r.wideTid = false :=
    Bool.not_eq_true _ ▸ r.noAgreement
  obtain ⟨hnone, hcount, hview⟩ :=
    framesOf_of_not_aggEnabled r.runBefore r.attributedBefore hoff
  have hreq := txTid_issueActionBA tid r.memAvail r.known
  rw [ofNat_tid] at hreq
  refine ⟨hnone, hcount, hreq.trans ?_⟩
  ext1
  · rfl
  · rfl
  · rw [hview]
    rfl

/-- The transmit state of the TID when the response is heard. -/
theorem beforeResponse :
    CountsOn (r.asking.txTid k r.wideTid).txseq (r.framesBetween.map HdrAttrib.seqnum)
        (r.answered.txTid k r.wideTid).txseq ∧
      r.agreed.txTid k r.wideTid =
        ⟨(r.answered.txTid k r.wideTid).txseq, (r.asking.txTid k r.wideTid).txseq % 4096 + 1,
          (r.start.sta k).htpriv.enableAgg tid⟩ := by
  obtain ⟨-, -, hasked⟩ := r.beforeRequest
  have hoff : (r.asked.txTid k r.wideTid).htpriv.aggEnableBitmap.getLsbD r.wideTid = false := by
    rw [hasked]
    exact Bool.not_eq_true _ ▸ r.noAgreement
  obtain ⟨-, hcount, hview⟩ :=
    framesOf_of_not_aggEnabled r.runBetween r.attributedBetween hoff
  change CountsOn (r.asked.txTid k r.wideTid).txseq _ _ at hcount
  change r.answered.txTid k r.wideTid = ⟨(r.answered.txTid k r.wideTid).txseq,
    (r.asked.txTid k r.wideTid).start, (r.asked.txTid k r.wideTid).htpriv⟩ at hview
  rw [hasked] at hcount hview
  have hstart : (r.answered.txTid k r.wideTid).start =
      (r.asking.txTid k r.wideTid).txseq % 4096 + 1 := by rw [hview]
  have hpriv : (r.answered.sta k).htpriv = (r.start.sta k).htpriv :=
    show (r.answered.txTid k r.wideTid).htpriv = _ by rw [hview]
  refine ⟨hcount, (txTid_onActionBack r.accepted r.wideTid).trans ?_⟩
  dsimp only
  rw [hpriv, hstart]

/-- The frames after the response. -/
theorem afterResponse :
    CountsOn (r.answered.txTid k r.wideTid).txseq (r.framesAfter.map HdrAttrib.seqnum)
        (r.last.txTid k r.wideTid).txseq ∧
      ((∀ a ∈ r.framesAfter, a.ampduEn = true) ↔
        r.countAfter = 0 ∨ r.countBetween % 4096 < 2048) := by
  obtain ⟨hcount, hagreed⟩ := r.beforeResponse
  have hmod := hcount.last_mod
  have hlen : r.framesBetween.length = r.countBetween := length_framesOf r.runBetween
  rw [List.length_map, hlen] at hmod
  have hon : (r.agreed.txTid k r.wideTid).htpriv.aggEnableBitmap.getLsbD r.wideTid = true := by
    rw [hagreed]
    exact (getLsbD_setTid_iff _ _ tid).mpr (Or.inl rfl)
  have hht : (r.agreed.txTid k r.wideTid).htpriv.htOption = true := by
    rw [hagreed]
    exact r.htOption
  have hen : (r.agreed.txTid k r.wideTid).htpriv.ampduEnable = true := by
    rw [hagreed]
    exact r.ampduEnable
  obtain ⟨hcount', hall⟩ := framesOf_of_aggEnabled r.runAfter r.attributedAfter hon hht hen
  change CountsOn (r.agreed.txTid k r.wideTid).txseq _ _ at hcount'
  change (∀ a ∈ r.framesAfter, _) ↔ r.framesAfter = [] ∨
    snLess (((r.agreed.txTid k r.wideTid).txseq + 1) % 4096)
      (r.agreed.txTid k r.wideTid).start = false at hall
  rw [hagreed] at hcount' hall
  have hnil : r.framesAfter = [] ↔ r.countAfter = 0 := by
    have hlen : r.framesAfter.length = r.countAfter := length_framesOf r.runAfter
    rw [← List.length_eq_zero_iff, hlen]
  refine ⟨hcount', ?_⟩
  rw [hall, hnil, snLess_start_iff hmod]

/-- Aggregation resumes exactly when no frame follows, or when fewer than 2048 frames,
modulo 4096, were sent between the request and the response. -/
theorem aggregationResumes_iff :
    r.AggregationResumes ↔ r.countAfter = 0 ∨ r.countBetween % 4096 < 2048 := by
  obtain ⟨hnone, hcount₁, -⟩ := r.beforeRequest
  obtain ⟨hcount₂, -⟩ := r.beforeResponse
  obtain ⟨hcount₃, hall⟩ := r.afterResponse
  refine ⟨fun h => hall.mp h.resumed, fun h => ⟨⟨(r.last.txTid k r.wideTid).txseq, ?_⟩,
    ?_, hnone, hall.mpr h⟩⟩
  · rw [List.map_append, List.map_append]
    exact (hcount₁.append hcount₂).append hcount₃
  · intro a ha
    have hreq := reqStart_issueActionBA tid r.memAvail r.known
    rw [ofNat_tid] at hreq
    refine hreq.trans (congrArg some ?_)
    -- the first frame after the request counts on from the last one before it
    have hnext := hcount₂.append hcount₃
    rw [← List.map_append] at hnext
    cases hl : r.framesBetween ++ r.framesAfter with
    | nil =>
      rw [hl] at ha
      cases ha
    | cons b bs =>
      rw [hl] at ha hnext
      cases ha
      exact hnext.1.symm

end AddbaRun

/-! ## A late response -/

namespace Adapter

variable {ι : Type}

/-- A frame that is sent again and again. -/
theorem exists_run_replicate {k : StaId} {tid : Fin 16} {f : TxFrame} :
    ∀ (n : ℕ) {s : Adapter ι}, s.Numbers k tid f.attrib → Attributed k tid s f →
      ∃ t, runM hdrStep s (List.replicate n f) = some t ∧ SameLink s t ∧
        AlongM hdrStep (Attributed k tid) s (List.replicate n f)
  | 0, s, _, _ => ⟨s, rfl, ⟨rfl, rfl, rfl, fun _ => rfl, fun _ => rfl⟩, trivial⟩
  | n + 1, s, hn, ha => by
    obtain ⟨r, hr, -, -, -⟩ := rtwMakeWlanhdr_of_numbers hn
    have hsame := sameLink_rtwMakeWlanhdr hr
    have hstep : s.hdrStep f = some r.adapter := by rw [hdrStep, hr, Option.map_some]
    have ha' : Attributed k tid r.adapter f := by
      intro hn'
      rw [hsame.htpriv]
      exact ha ((hsame.numbers k tid f.attrib).mp hn')
    obtain ⟨t, hrun, hlink, halong⟩ :=
      exists_run_replicate n ((hsame.numbers k tid f.attrib).mpr hn) ha'
    refine ⟨t, ?_, hsame.trans hlink, ha, fun u hu => ?_⟩
    · rw [List.replicate_succ, runM, List.foldlM_cons, hstep]
      exact hrun
    · obtain rfl := Option.some.inj (hstep.symm.trans hu)
      exact halong

end Adapter

/-- An associated client, the access point of which has HT and aggregation. -/
def htClient : Adapter (Fin 256) :=
  let s := linkedDevice
  let s := { s with mlmepriv.fwState := 0x09 }
  s.updateSta 1 fun st => st.updateHt fun h => { h with htOption := true, ampduEnable := true }

/-- A data frame of TID 5 to the access point. -/
def sampleTxFrame : TxFrame where
  mem := fun _ => 0
  hdr := 0
  attrib := ⟨0x08, 24, .noPrivacy, 5, 0, 0, false, localAddr 2, localAddr 1,
    (localAddr 2), true, false, 0, some 1⟩

/-- The response comes after 2048 frames, and the next frame is not aggregated. -/
theorem not_aggregationResumes_sample :
    ¬ ∀ r : AddbaRun (Fin 256) 1 5, r.AggregationResumes := by
  intro hall
  let asked := htClient.issueActionBA #v[2, 0, 0, 0, 0, 2] .addbaReq 5
  have hnumbers : asked.Numbers 1 5 sampleTxFrame.attrib := by decide
  have hattr : Adapter.Attributed 1 5 asked sampleTxFrame := fun _ => by decide
  obtain ⟨t, hrun, hlink, halong⟩ := exists_run_replicate 2048 hnumbers hattr
  have hears : asked.Hears strayResponse 0 1 :=
    ⟨by decide, by decide, by decide, by decide, by decide⟩
  have haccepted : AggAccepted 1 5 t (.rx strayResponse 0) :=
    ⟨hlink.hears hears, by decide, by decide, by decide⟩
  -- one more frame after the response
  have hmlme : (t.onActionBack strayResponse 0).mlmepriv = asked.mlmepriv := by
    rw [onActionBack_of_hears (hlink.hears hears) haccepted.2.1]
    unfold onAddbaResp
    dsimp only
    rw [if_pos haccepted.2.2.1]
    exact hlink.mlmepriv
  have hnumbers' : (t.onActionBack strayResponse 0).Numbers 1 5 sampleTxFrame.attrib := by
    refine ⟨by decide, ?_, rfl, rfl⟩
    rw [hmlme]
    exact hnumbers.2.1
  have hattr' : Adapter.Attributed 1 5 (t.onActionBack strayResponse 0) sampleTxFrame := by
    intro _
    refine ⟨rfl, ?_⟩
    have hht : ((t.onActionBack strayResponse 0).sta 1).htpriv.htOption =
        (t.sta 1).htpriv.htOption :=
      congrArg (fun v => v.htpriv.htOption) (txTid_onActionBack haccepted 5)
    rw [hht, hlink.htpriv]
    decide
  obtain ⟨u, hrun', -, halong'⟩ := exists_run_replicate 1 hnumbers' hattr'
  let r : AddbaRun (Fin 256) 1 5 :=
    { start := htClient, before := [], asking := htClient, raddr := #v[2, 0, 0, 0, 0, 2]
      between := List.replicate 2048 sampleTxFrame, answered := t, m := strayResponse, p := 0
      after := List.replicate 1 sampleTxFrame, last := u
      runBefore := rfl, memAvail := by decide, known := by decide
      runBetween := hrun, accepted := haccepted, runAfter := hrun'
      attributedBefore := trivial, attributedBetween := halong, attributedAfter := halong'
      htOption := by decide, ampduEnable := by decide, noAgreement := by unfold AggEnabled; decide }
  have hcount : r.countBetween = 2048 := by
    refine (List.countP_replicate ..).trans (if_pos ?_)
    exact decide_eq_true hnumbers
  have hafter : r.countAfter = 1 := by
    refine (List.countP_replicate ..).trans (if_pos ?_)
    exact decide_eq_true hnumbers'
  rcases r.afterResponse.2.mp (hall r).resumed with h | h
  · omega
  · omega

end Rtl8188eu
