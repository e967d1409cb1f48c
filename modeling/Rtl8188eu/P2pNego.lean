import Rtl8188eu.P2p
import Rtl8188eu.Runs

/-!
# Two devices negotiate

Two devices run the negotiation over an air that loses, repeats and reorders their frames.
An exchange is one request with the responses and confirms it leads to; it is named by the
device that sent the request and a number, and a device counts as being in `GONEGO_OK` for
the exchange of the frame that last brought it there.

The role of the responder is computed a second time when the confirm comes, from the intent
that was recorded last. Requests that cross leave the intent of a response there, whose
tie breaker is the opposite one, and both devices become group owner. A negotiation that
times out puts a device that was in `GONEGO_OK` back there as a plain device
(`rolesAgree_run`).
-/

namespace Rtl8188eu

/-- The two devices. -/
inductive Side
  | a
  | b
  deriving DecidableEq

namespace Side

/-- The other device. -/
def other : Side → Side
  | a => b
  | b => a

@[simp] theorem other_other (d : Side) : d.other.other = d := by cases d <;> rfl

theorem other_ne (d : Side) : d.other ≠ d := by cases d <;> exact fun h => nomatch h

theorem eq_other {d s : Side} (h : s ≠ d) : s = d.other := by
  cases d <;> cases s <;> first | rfl | exact absurd rfl h

end Side

/-- The frame `f` brings the device into `GONEGO_OK`, or into it once more by a confirm. -/
def P2pDevice.entersOk (w : P2pDevice) (xmit retry : Bool) (f : NegoFrame) : Bool :=
  (w.onActionPublicP2p xmit retry f).1.p2pState = .gonegoOk ∧
    (w.p2pState ≠ .gonegoOk ∨
      f.subtype = .conf ∧ (w.rtwActionPublicDecache f retry).isSome)

/-- A frame on the air, with its sender and the exchange it belongs to. -/
structure P2pPacket where
  src : Side
  exch : Side × ℕ
  frame : NegoFrame

/-- Two devices and all the frames they have sent. -/
structure P2pAir where
  dev : Side → P2pDevice
  sent : List P2pPacket
  /-- The exchange that brought the device into `GONEGO_OK` last. -/
  exch : Side → Option (Side × ℕ)
  /-- The number of requests sent. -/
  requests : ℕ

/-- What can happen. A frame that was sent may be delivered any number of times, and never.
`xmit` says that the device has a free management frame. -/
inductive P2pEvent
  | connect (d : Side) (peerMAC : MacAddr) (uintPeerChannel : ℕ)
  | probeRsp (d : Side) (xmit : Bool) (addr2 : MacAddr)
  | deliver (n : ℕ) (xmit retry : Bool)
  | restoreTimer (d : Side)
  | restoreCmd (d : Side)
  | gotWpsinfo (d : Side) (info : P2pWpsinfo)

namespace P2pAir

/-- Device `d` is now `w`. -/
def setDev (s : P2pAir) (d : Side) (w : P2pDevice) : P2pAir :=
  { s with dev := Function.update s.dev d w }

/-- The frame `f?` of `d`, if there is one, is on the air. -/
def transmit (s : P2pAir) (d : Side) (exch : Side × ℕ) (f? : Option NegoFrame) : P2pAir :=
  { s with sent := s.sent ++ (f?.map fun f => ⟨d, exch, f⟩).toList }

/-- The packet `p` reaches the other device. -/
def deliver (s : P2pAir) (p : P2pPacket) (xmit retry : Bool) : P2pAir :=
  let d := p.src.other
  if p.frame.addr1 ≠ (s.dev d).myid then s
  else
    let entered := (s.dev d).entersOk xmit retry p.frame
    let (w, f?) := (s.dev d).onActionPublicP2p xmit retry p.frame
    let s := (s.setDev d w).transmit d p.exch f?
    if entered then { s with exch := Function.update s.exch d (some p.exch) } else s

/-- One event. -/
def step (s : P2pAir) : P2pEvent → P2pAir
  | .connect d peerMAC ch => s.setDev d ((s.dev d).rtwP2pConnect peerMAC ch)
  | .probeRsp d xmit addr2 =>
    let (w, f?) := (s.dev d).onProbeRsp xmit addr2
    { (s.setDev d w).transmit d (d, s.requests) f? with
      requests := s.requests + (if f?.isSome then 1 else 0) }
  | .deliver n xmit retry =>
    match s.sent[n]? with
    | some p => s.deliver p xmit retry
    | none => s
  | .restoreTimer d => s.setDev d (s.dev d).restoreP2pStateTimerProcess
  | .restoreCmd d => s.setDev d (s.dev d).restoreP2pStateHandler
  | .gotWpsinfo d info => s.setDev d { s.dev d with uiGotWpsInfo := info }

/-- The state after the events `es`. -/
def run (s : P2pAir) (es : List P2pEvent) : P2pAir := Runs.run step s es

/-- Nothing was sent yet. -/
def Start (s : P2pAir) : Prop := s.sent = [] ∧ ∀ d, s.exch d = none

/-- When both devices are in `GONEGO_OK` for the same exchange, one is the group owner and
the other the client. -/
def RolesAgree (s : P2pAir) : Prop :=
  (s.dev .a).p2pState = .gonegoOk → (s.dev .b).p2pState = .gonegoOk →
    s.exch .a = s.exch .b → (s.exch .a).isSome →
      ((s.dev .a).role = .go ∧ (s.dev .b).role = .client) ∨
        ((s.dev .a).role = .client ∧ (s.dev .b).role = .go)

instance (s : P2pAir) : Decidable s.RolesAgree := by
  unfold RolesAgree
  infer_instance

end P2pAir

namespace P2pDevice

variable {w : P2pDevice} {f : NegoFrame} {ie : P2pIe} {g : UInt8}

theorem goIntentAttr_shiftRight (w : P2pDevice) (tie : Bool) :
    (w.goIntentAttr tie >>> 1).toNat = w.intent := by
  have h : ∀ (i : Fin 16) (tie : Bool),
      ((UInt8.ofNat i.val <<< 1 ||| if tie then 1 else 0) >>> 1).toNat = i := by decide
  exact h w.intent tie

theorem goIntentAttr_and_one (w : P2pDevice) (tie : Bool) :
    w.goIntentAttr tie &&& 0x01 = if tie then 1 else 0 := by
  have h : ∀ (i : Fin 16) (tie : Bool),
      (UInt8.ofNat i.val <<< 1 ||| if tie then 1 else 0) &&& 0x01 = if tie then 1 else 0 := by
    decide
  exact h w.intent tie

theorem goIntentAttr_congr {w w' : P2pDevice} (h : w.intent = w'.intent) (tie : Bool) :
    w.goIntentAttr tie = w'.goIntentAttr tie := by
  unfold goIntentAttr
  rw [h]

/-- Choosing the operating channel touches nothing else. -/
theorem changeOperatingChannel_eq (w : P2pDevice) (incl : List UInt8) (peerCh : Option UInt8) :
    ∃ ch, w.changeOperatingChannel incl peerCh = { w with operatingChannel := ch } := by
  unfold changeOperatingChannel
  split_ifs
  exacts [⟨_, rfl⟩, ⟨_, rfl⟩, ⟨_, rfl⟩]

theorem p2pStatusFailIncompatibleParam_ne : p2pStatusFailIncompatibleParam ≠ p2pStatusSuccess := by
  decide

theorem p2pStatusFailInfoUnavailable_ne : p2pStatusFailInfoUnavailable ≠ p2pStatusSuccess := by
  decide

theorem reqGoIntent_spec (w : P2pDevice) (r attr : UInt8) :
    (w.reqGoIntent r attr).2.p2pState = w.p2pState ∧
      (w.reqGoIntent r attr).2.intent = w.intent ∧ (w.reqGoIntent r attr).2.peerIntent = attr := by
  unfold reqGoIntent
  dsimp only
  split_ifs
  exacts [⟨rfl, rfl, rfl⟩, ⟨rfl, rfl, rfl⟩]

/-- A request never ends in `GONEGO_OK`. It is granted only with the intent recorded. -/
theorem processReq_spec (hf : f.p2pIes = [ie]) (hg : ie.goIntent = some g) :
    (w.processP2pGroupNegotationReq f).2.p2pState ≠ .gonegoOk ∧
      (w.processP2pGroupNegotationReq f).2.intent = w.intent ∧
      ((w.processP2pGroupNegotationReq f).2.peerIntent = w.peerIntent ∧
          (w.processP2pGroupNegotationReq f).1 ≠ p2pStatusSuccess ∨
        (w.processP2pGroupNegotationReq f).2.peerIntent = g) := by
  unfold processP2pGroupNegotationReq
  split_ifs with h1 h2 h3
  · exact ⟨nofun, rfl, Or.inl ⟨rfl, p2pStatusFailInfoUnavailable_ne⟩⟩
  · exact ⟨nofun, rfl, Or.inl ⟨rfl, p2pStatusFailIncompatibleParam_ne⟩⟩
  · rw [hf]
    simp only [reqLoop, hg]
    obtain ⟨hs, hi, hp⟩ := reqGoIntent_spec { w with p2pState := .gonegoIng } p2pStatusSuccess g
    cases ie.chList with
    | none => exact ⟨by simp [hs], hi, Or.inr hp⟩
    | some chContent =>
      dsimp only
      split_ifs with hch
      · exact ⟨nofun, hi, Or.inr hp⟩
      · obtain ⟨ch, hch⟩ := changeOperatingChannel_eq
          (reqGoIntent { w with p2pState := .gonegoIng } p2pStatusSuccess g).2
          (chListInclusioned
            (reqGoIntent { w with p2pState := .gonegoIng } p2pStatusSuccess g).2 chContent)
          ie.operatingCh
        rw [hch]
        exact ⟨by simp [hs], hi, Or.inr hp⟩
  · exact ⟨nofun, rfl, Or.inl ⟨rfl, p2pStatusFailIncompatibleParam_ne⟩⟩

theorem respGoIntent_spec (w : P2pDevice) (r attr : UInt8) :
    (w.respGoIntent r attr).2.intent = w.intent ∧
      (w.respGoIntent r attr).2.peerIntent = attr ∧
      ((w.respGoIntent r attr).2.p2pState = .gonegoOk →
        (w.respGoIntent r attr).2.role = w.roleByIntent attr) := by
  unfold respGoIntent
  dsimp only
  split_ifs
  exacts [⟨rfl, rfl, nofun⟩, ⟨rfl, rfl, fun _ => rfl⟩]

/-- A response that refuses leaves the recorded intent and does not end in `GONEGO_OK`. -/
theorem processResp_refused (hw : f.wpsIe = true) (hf : f.p2pIes = [ie]) {st : UInt8}
    (hst : ie.status = some st) (hne : st ≠ p2pStatusSuccess) :
    (w.processP2pGroupNegotationResp f).2.intent = w.intent ∧
      (w.processP2pGroupNegotationResp f).2.peerIntent = w.peerIntent ∧
      (w.processP2pGroupNegotationResp f).1 ≠ p2pStatusSuccess ∧
      (w.processP2pGroupNegotationResp f).2.p2pState ≠ .gonegoOk := by
  simp only [processP2pGroupNegotationResp, hw, hf, respLoop, hst, Option.filter,
    hne, ne_eq, not_false_eq_true, decide_true, if_true, reduceCtorEq, if_false, true_and]
  split_ifs <;> exact id

/-- A response that grants records its intent, and ends in `GONEGO_OK` only with the role
that this intent gives. -/
theorem processResp_granted (hw : f.wpsIe = true) (hf : f.p2pIes = [ie])
    (hst : ie.status = some p2pStatusSuccess) (hg : ie.goIntent = some g) :
    (w.processP2pGroupNegotationResp f).2.intent = w.intent ∧
      (w.processP2pGroupNegotationResp f).2.peerIntent = g ∧
      ((w.processP2pGroupNegotationResp f).2.p2pState = .gonegoOk →
        (w.processP2pGroupNegotationResp f).2.role = w.roleByIntent g) := by
  simp only [processP2pGroupNegotationResp, hw, hf, respLoop, hst, Option.filter,
    ne_eq, not_true_eq_false, decide_false, Bool.false_eq_true, if_true, reduceCtorEq, if_false, hg]
  have h := respGoIntent_spec w p2pStatusSuccess g
  cases ie.chList with
  | none => exact h
  | some chContent =>
    dsimp only
    split_ifs with hch
    · exact ⟨h.1, h.2.1, nofun⟩
    · generalize (respGoIntent w p2pStatusSuccess g) = u at h ⊢
      obtain ⟨r, u⟩ := u
      obtain ⟨ch, hch⟩ := changeOperatingChannel_eq
        { u with peerOperatingCh := ie.operatingCh.getD u.peerOperatingCh,
                 channelListAttr := chContent }
        (chListInclusioned
          { u with peerOperatingCh := ie.operatingCh.getD u.peerOperatingCh,
                   channelListAttr := chContent } chContent) ie.operatingCh
      rw [hch]
      exact h

/-- A confirm computes the role from the intent that was recorded last. -/
theorem processConfirm_granted (hf : f.p2pIes = [ie]) (hst : ie.status = some p2pStatusSuccess) :
    (w.processP2pGroupNegotationConfirm f).2.intent = w.intent ∧
      (w.processP2pGroupNegotationConfirm f).2.peerIntent = w.peerIntent ∧
      (w.processP2pGroupNegotationConfirm f).2.role = w.roleByIntent w.peerIntent := by
  simp only [processP2pGroupNegotationConfirm, hf, confirmLoop, hst, if_true]
  exact ⟨trivial, trivial, rfl⟩

/-- A confirm that refuses does not end in `GONEGO_OK`. -/
theorem processConfirm_refused (hf : f.p2pIes = [ie]) {st : UInt8} (hst : ie.status = some st)
    (hne : st ≠ p2pStatusSuccess) :
    (w.processP2pGroupNegotationConfirm f).2.intent = w.intent ∧
      (w.processP2pGroupNegotationConfirm f).2.peerIntent = w.peerIntent ∧
      (w.processP2pGroupNegotationConfirm f).2.p2pState ≠ .gonegoOk := by
  simp only [processP2pGroupNegotationConfirm, hf, confirmLoop, hst, if_neg hne]
  exact ⟨trivial, trivial, fun h => P2pState.noConfusion h⟩

/-- What answering a granted or refused request sends. -/
theorem issueP2pGOResponse_spec {xmit : Bool} {r : UInt8} {w' : P2pDevice} {f? : Option NegoFrame}
    (h : w.issueP2pGOResponse xmit f r = (w', f?)) :
    w'.intent = w.intent ∧ w'.peerIntent = w.peerIntent ∧ w'.p2pState = w.p2pState ∧
      ∀ f' ∈ f?, f'.subtype = .resp ∧ f'.wpsIe = true ∧ ∃ ie', f'.p2pIes = [ie'] ∧
        ie'.status = some r ∧
        ie'.goIntent = some (w.goIntentAttr (w.peerIntent &&& 0x01 = 0)) := by
  unfold issueP2pGOResponse at h
  split_ifs at h with hx
  · cases h
    refine ⟨rfl, rfl, rfl, ?_⟩
    rintro f' ⟨⟩
    exact ⟨rfl, rfl, _, rfl, rfl, rfl⟩
  · cases h
    exact ⟨rfl, rfl, rfl, nofun⟩

/-- A request first saves the state that a failure goes back to. -/
theorem onGoNegoReq_eq (w : P2pDevice) (xmit : Bool) (f : NegoFrame) :
    ∃ st pre t, w.onGoNegoReq xmit f =
      let u := processP2pGroupNegotationReq
        { w with p2pState := st, preP2pState := pre, restoreTimer := t } f
      ({ (u.2.issueP2pGOResponse xmit f u.1).1 with restoreTimer := true },
        (u.2.issueP2pGOResponse xmit f u.1).2) := by
  unfold onGoNegoReq
  dsimp only
  split_ifs <;> exact ⟨_, _, _, rfl⟩

/-- What the branch `P2P_GO_NEGO_REQ` does with a request for the intent `g`. -/
theorem onGoNegoReq_spec {xmit : Bool} (hf : f.p2pIes = [ie]) (hg : ie.goIntent = some g)
    {w' : P2pDevice} {f? : Option NegoFrame} (h : w.onGoNegoReq xmit f = (w', f?)) :
    w'.intent = w.intent ∧ (w'.peerIntent = w.peerIntent ∨ w'.peerIntent = g) ∧
      w'.p2pState ≠ .gonegoOk ∧
      ∀ f' ∈ f?, f'.subtype = .resp ∧ f'.wpsIe = true ∧ ∃ ie' st, f'.p2pIes = [ie'] ∧
        ie'.status = some st ∧ (st = p2pStatusSuccess → w'.peerIntent = g ∧
          ie'.goIntent = some (w'.goIntentAttr (g &&& 0x01 = 0))) := by
  obtain ⟨st, pre, t, he⟩ := w.onGoNegoReq_eq xmit f
  rw [he] at h
  clear he
  obtain ⟨hok, hi, hp⟩ := processReq_spec
    (w := { w with p2pState := st, preP2pState := pre, restoreTimer := t }) hf hg
  generalize processP2pGroupNegotationReq
    { w with p2pState := st, preP2pState := pre, restoreTimer := t } f = u at *
  rcases hr : u.2.issueP2pGOResponse xmit f u.1 with ⟨v, f₁⟩
  obtain ⟨hi', hp', hs', hsent⟩ := issueP2pGOResponse_spec hr
  simp only [hr] at h
  cases h
  refine ⟨hi'.trans hi, ?_, fun hok' => hok (hs'.symm.trans hok'), ?_⟩
  · rcases hp with ⟨hp, -⟩ | hp
    · exact Or.inl (hp'.trans hp)
    · exact Or.inr (hp'.trans hp)
  · intro f' hf'
    obtain ⟨h1, h2, ie', h3, h4, h5⟩ := hsent f' hf'
    refine ⟨h1, h2, ie', u.1, h3, h4, ?_⟩
    intro hr
    rcases hp with ⟨-, hne⟩ | hp
    · exact absurd hr hne
    · refine ⟨hp'.trans hp, ?_⟩
      rw [h5, hp]
      exact congrArg some (goIntentAttr_congr hi'.symm _)

/-- What accepting a response sends. -/
theorem issueP2pGOConfirm_spec {xmit : Bool} {raddr : MacAddr} {r : UInt8} {w' : P2pDevice}
    {f? : Option NegoFrame} (h : w.issueP2pGOConfirm xmit raddr r = (w', f?)) :
    w'.intent = w.intent ∧ w'.peerIntent = w.peerIntent ∧ w'.p2pState = w.p2pState ∧
      w'.role = w.role ∧
      ∀ f' ∈ f?, f'.subtype = .conf ∧ ∃ ie', f'.p2pIes = [ie'] ∧ ie'.status = some r := by
  unfold issueP2pGOConfirm at h
  cases xmit with
  | false =>
    cases h
    exact ⟨rfl, rfl, rfl, rfl, nofun⟩
  | true =>
    cases h
    refine ⟨rfl, rfl, rfl, rfl, ?_⟩
    rintro f' ⟨⟩
    exact ⟨rfl, _, rfl, rfl⟩

/-- A response is processed with the restore timer off. -/
theorem onGoNegoResp_eq (w : P2pDevice) (xmit : Bool) (f : NegoFrame)
    (hing : w.p2pState = .gonegoIng) : ∃ tok t, w.onGoNegoResp xmit f =
      let u := processP2pGroupNegotationResp { w with restoreTimer := false, benable := false } f
      let v := u.2.issueP2pGOConfirm xmit f.addr2 u.1
      ({ v.1 with negotiationDialogToken := tok, restoreTimer := t }, v.2) := by
  unfold onGoNegoResp
  rw [if_neg (not_not.2 hing)]
  dsimp only
  split_ifs <;> exact ⟨_, _, rfl⟩

/-- What the branch `P2P_GO_NEGO_RESP` does with a response of status `st`, which carries
the intent `g` if it grants. -/
theorem onGoNegoResp_spec {xmit : Bool} (hw : f.wpsIe = true) (hf : f.p2pIes = [ie])
    {st : UInt8} (hst : ie.status = some st)
    (hg : st = p2pStatusSuccess → ie.goIntent = some g)
    {w' : P2pDevice} {f? : Option NegoFrame} (h : w.onGoNegoResp xmit f = (w', f?)) :
    w'.intent = w.intent ∧
      (w'.peerIntent = w.peerIntent ∨ st = p2pStatusSuccess ∧ w'.peerIntent = g) ∧
      (w'.p2pState = .gonegoOk → w.p2pState = .gonegoOk ∧ w'.role = w.role ∨
        w.p2pState ≠ .gonegoOk ∧ st = p2pStatusSuccess ∧ w'.role = w.roleByIntent g) ∧
      ∀ f' ∈ f?, f'.subtype = .conf ∧ ∃ ie' st', f'.p2pIes = [ie'] ∧
        ie'.status = some st' ∧ (st' = p2pStatusSuccess → st = p2pStatusSuccess) := by
  rcases eq_or_ne w.p2pState .gonegoIng with hing | hing
  · have hne : w.p2pState ≠ .gonegoOk := by
      rw [hing]
      exact fun h => nomatch h
    obtain ⟨tok, t, he⟩ := w.onGoNegoResp_eq xmit f hing
    rw [he] at h
    clear he
    have hu : ∀ u, processP2pGroupNegotationResp
          { w with restoreTimer := false, benable := false } f = u →
        u.2.intent = w.intent ∧
          (u.2.peerIntent = w.peerIntent ∨ st = p2pStatusSuccess ∧ u.2.peerIntent = g) ∧
          (u.2.p2pState = .gonegoOk → st = p2pStatusSuccess ∧ u.2.role = w.roleByIntent g) ∧
          (u.1 = p2pStatusSuccess → st = p2pStatusSuccess) := by
      rintro u rfl
      rcases eq_or_ne st p2pStatusSuccess with rfl | hst'
      · obtain ⟨h1, h2, h3⟩ := processResp_granted
          (w := { w with restoreTimer := false, benable := false }) hw hf hst (hg rfl)
        exact ⟨h1, Or.inr ⟨rfl, h2⟩, fun h => ⟨rfl, h3 h⟩, fun _ => rfl⟩
      · obtain ⟨h1, h2, h3, h4⟩ := processResp_refused
          (w := { w with restoreTimer := false, benable := false }) hw hf hst hst'
        exact ⟨h1, Or.inl h2, fun h => absurd h h4, fun h => absurd h h3⟩
    generalize hu' : processP2pGroupNegotationResp
      { w with restoreTimer := false, benable := false } f = u at h
    obtain ⟨hi, hp, hrole, hres⟩ := hu u hu'
    rcases hr : u.2.issueP2pGOConfirm xmit f.addr2 u.1 with ⟨v, f₁⟩
    obtain ⟨hi', hp', hs', hr', hsent⟩ := issueP2pGOConfirm_spec hr
    simp only [hr] at h
    cases h
    refine ⟨hi'.trans hi, ?_, ?_, ?_⟩
    · rw [← hp'] at hp
      exact hp
    · intro hok
      obtain ⟨hst', hro⟩ := hrole (hs'.symm.trans hok)
      exact Or.inr ⟨hne, hst', hr'.trans hro⟩
    · intro f' hf'
      obtain ⟨h1, ie', h2, h3⟩ := hsent f' hf'
      exact ⟨h1, ie', u.1, h2, h3, hres⟩
  · rw [onGoNegoResp, if_pos hing] at h
    cases h
    exact ⟨rfl, Or.inl rfl, fun hok => Or.inl ⟨hok, rfl⟩, nofun⟩

/-- Remembering the frame touches nothing that the negotiation decides by. -/
theorem rtwActionPublicDecache_eq {retry : Bool} {w₁ : P2pDevice}
    (h : w.rtwActionPublicDecache f retry = some w₁) :
    ∃ q t, w₁ = { w with actionPublicRxseq := q, actionPublicDialogToken := t } := by
  unfold rtwActionPublicDecache at h
  split_ifs at h
  exact ⟨_, _, (Option.some.inj h).symm⟩

/-- A frame is ignored, or goes to the branch of its subtype. -/
theorem onActionPublicP2p_cases {xmit retry : Bool} {w' : P2pDevice} {f? : Option NegoFrame}
    (h : w.onActionPublicP2p xmit retry f = (w', f?)) :
    ∃ q t, (w' = { w with actionPublicRxseq := q, actionPublicDialogToken := t } ∧
        f? = none ∧ ((w.rtwActionPublicDecache f retry).isSome → w.p2pState ≠ .gonegoOk)) ∨
      (w.rtwActionPublicDecache f retry).isSome ∧ (match f.subtype with
        | .req => onGoNegoReq
            { w with actionPublicRxseq := q, actionPublicDialogToken := t } xmit f
        | .resp => onGoNegoResp
            { w with actionPublicRxseq := q, actionPublicDialogToken := t } xmit f
        | .conf => ((processP2pGroupNegotationConfirm
            { w with actionPublicRxseq := q, actionPublicDialogToken := t } f).2, none)) =
        (w', f?) := by
  unfold onActionPublicP2p at h
  cases hd : w.rtwActionPublicDecache f retry with
  | none =>
    rw [hd] at h
    cases h
    exact ⟨w.actionPublicRxseq, w.actionPublicDialogToken, Or.inl ⟨rfl, rfl, nofun⟩⟩
  | some w₁ =>
    obtain ⟨q, t, rfl⟩ := rtwActionPublicDecache_eq hd
    rw [hd] at h
    refine ⟨q, t, ?_⟩
    dsimp only at h
    split_ifs at h with hst
    · cases h
      refine Or.inl ⟨rfl, rfl, fun _ hok => ?_⟩
      rcases hst with hst | hst
      · exact nomatch hst.symm.trans hok
      · exact nomatch hst.symm.trans hok
    · exact Or.inr ⟨rfl, h⟩

theorem roleByIntent_eq (w : P2pDevice) {j : Fin 16} (hg : (g >>> 1).toNat = j) :
    w.roleByIntent g =
      if w.intent = j then if g &&& 0x01 ≠ 0 then .client else .go
      else if j < w.intent then .go else .client := by
  unfold roleByIntent
  rw [hg]
  simp only [Fin.ext_iff, Fin.lt_def, gt_iff_lt]

end P2pDevice

namespace P2pAir

/-! ## The invariant -/

/-- Device `d` has recorded the intent of the other one. -/
def Recorded (s : P2pAir) (d : Side) : Prop :=
  ((s.dev d).peerIntent >>> 1).toNat = (s.dev d.other).intent

/-- What a frame on the air carries. A request has the tie breaker 1 and a response that
grants has 0; a device grants, and is granted, only after the intent was recorded. -/
def PacketOk (s : P2pAir) (p : P2pPacket) : Prop :=
  match p.frame.subtype with
  | .req => p.exch.1 = p.src ∧ ∃ ie g, p.frame.p2pIes = [ie] ∧ ie.goIntent = some g ∧
      (g >>> 1).toNat = (s.dev p.src).intent ∧ g &&& 0x01 = 1
  | .resp => p.exch.1 = p.src.other ∧ p.frame.wpsIe = true ∧ ∃ ie st, p.frame.p2pIes = [ie] ∧
      ie.status = some st ∧ (st = p2pStatusSuccess → s.Recorded p.src ∧
        ∃ g, ie.goIntent = some g ∧ (g >>> 1).toNat = (s.dev p.src).intent ∧ g &&& 0x01 = 0)
  | .conf => p.exch.1 = p.src ∧ ∃ ie st, p.frame.p2pIes = [ie] ∧
      ie.status = some st ∧ (st = p2pStatusSuccess → s.Recorded p.src.other)

/-- The role of `d` after the exchange `e`. Between equal intents the device that asked is
the group owner. -/
def roleIn (s : P2pAir) (d : Side) (e : Side × ℕ) : P2pRole :=
  if (s.dev d).intent = (s.dev d.other).intent then if e.1 = d then .go else .client
  else if (s.dev d.other).intent < (s.dev d).intent then .go else .client

/-- The frames are in order, and a device in `GONEGO_OK` has the role of its exchange. -/
structure Inv (s : P2pAir) : Prop where
  packets : ∀ p ∈ s.sent, s.PacketOk p
  roles : ∀ d e, s.exch d = some e → (s.dev d).p2pState = .gonegoOk →
    (s.dev d).role = s.roleIn d e

theorem Start.inv {s : P2pAir} (h : s.Start) : s.Inv where
  packets := by
    rw [h.1]
    exact fun p hp => nomatch hp
  roles d e he := by
    rw [h.2 d] at he
    exact nomatch he

/-- The roles of one exchange are opposite. -/
theorem Inv.rolesAgree {s : P2pAir} (h : s.Inv) : s.RolesAgree := by
  intro ha hb he hsome
  obtain ⟨e, hea⟩ := Option.isSome_iff_exists.1 hsome
  rw [h.roles .a e hea ha, h.roles .b e (he ▸ hea) hb]
  obtain ⟨d, n⟩ := e
  rcases lt_trichotomy (s.dev .a).intent (s.dev .b).intent with hlt | heq | hlt
  · exact Or.inr (by simp [roleIn, Side.other, hlt.ne, hlt.ne', hlt, hlt.not_gt])
  · cases d
    · exact Or.inl (by simp [roleIn, Side.other, heq])
    · exact Or.inr (by simp [roleIn, Side.other, heq])
  · exact Or.inl (by simp [roleIn, Side.other, hlt.ne, hlt.ne', hlt, hlt.not_gt])

/-- A step of device `d` that keeps its intent and, once recorded, that of the other. -/
structure DevStep (s s' : P2pAir) (d : Side) : Prop where
  others : s'.dev d.other = s.dev d.other
  intent : (s'.dev d).intent = (s.dev d).intent
  recorded : s.Recorded d →
    ((s'.dev d).peerIntent >>> 1).toNat = (s.dev d.other).intent

section DevStep

variable {s s' : P2pAir} {d : Side}

theorem DevStep.intent_eq (h : DevStep s s' d) (x : Side) :
    (s'.dev x).intent = (s.dev x).intent := by
  rcases eq_or_ne x d with rfl | hx
  · exact h.intent
  · rw [Side.eq_other hx, h.others]

theorem DevStep.recorded_mono (h : DevStep s s' d) {x : Side} (hx : s.Recorded x) :
    s'.Recorded x := by
  unfold Recorded
  rw [h.intent_eq]
  rcases eq_or_ne x d with rfl | hne
  · exact h.recorded hx
  · obtain rfl := Side.eq_other hne
    rw [h.others]
    exact hx

theorem DevStep.roleIn_eq (h : DevStep s s' d) (x : Side) (e : Side × ℕ) :
    s'.roleIn x e = s.roleIn x e := by
  unfold roleIn
  rw [h.intent_eq, h.intent_eq]

theorem DevStep.packetOk (h : DevStep s s' d) {p : P2pPacket} (hp : s.PacketOk p) :
    s'.PacketOk p := by
  unfold PacketOk at hp ⊢
  rw [h.intent_eq]
  split at hp
  · exact hp
  · obtain ⟨h1, h2, ie, st, h3, h4, h5⟩ := hp
    exact ⟨h1, h2, ie, st, h3, h4, fun hst => ⟨h.recorded_mono (h5 hst).1, (h5 hst).2⟩⟩
  · obtain ⟨h1, ie, st, h2, h3, h4⟩ := hp
    exact ⟨h1, ie, st, h2, h3, fun hst => h.recorded_mono (h4 hst)⟩

/-- A step of `d` keeps the invariant if what it sends is in order and its role is right. -/
theorem DevStep.inv (h : DevStep s s' d) (hs : s.Inv)
    (hsent : ∀ p ∈ s'.sent, p ∈ s.sent ∨ s'.PacketOk p)
    (hexch : s'.exch d.other = s.exch d.other)
    (hrole : ∀ e, s'.exch d = some e → (s'.dev d).p2pState = .gonegoOk →
      (s'.dev d).role = s.roleIn d e) : s'.Inv where
  packets p hp := by
    rcases hsent p hp with hp | hp
    · exact h.packetOk (hs.packets p hp)
    · exact hp
  roles x e he hok := by
    rw [h.roleIn_eq]
    rcases eq_or_ne x d with rfl | hx
    · exact hrole e he hok
    · obtain rfl := Side.eq_other hx
      rw [h.others] at hok ⊢
      exact hs.roles _ e (hexch ▸ he) hok

end DevStep

/-- A change of device `d` that sends nothing and does not bring it into `GONEGO_OK`. -/
theorem Inv.setDev {s : P2pAir} (hs : s.Inv) {d : Side} {w : P2pDevice}
    (hi : w.intent = (s.dev d).intent) (hp : w.peerIntent = (s.dev d).peerIntent)
    (hok : w.p2pState = .gonegoOk → (s.dev d).p2pState = .gonegoOk ∧ w.role = (s.dev d).role) :
    (s.setDev d w).Inv := by
  have hstep : DevStep s (s.setDev d w) d :=
    { others := Function.update_of_ne d.other_ne _ _
      intent := by simpa [P2pAir.setDev] using hi
      recorded := fun h => by
        simp only [P2pAir.setDev, Function.update_self, hp]
        exact h }
  refine hstep.inv hs (fun p hp => Or.inl hp) rfl ?_
  intro e he
  simp only [P2pAir.setDev, Function.update_self]
  intro hst
  rw [(hok hst).2]
  exact hs.roles d e he (hok hst).1

/-- The condition on an event : no confirm that grants is taken, between equal intents,
while the intent recorded last is that of a response, and no restore command puts a device
back into a `GONEGO_OK` that it has left. -/
def Undisturbed (s : P2pAir) : P2pEvent → Prop
  | .deliver n _ _ => ∀ p ∈ s.sent[n]?, p.frame.subtype = .conf →
      (∃ ie ∈ p.frame.p2pIes, ie.status = some p2pStatusSuccess) →
      (s.dev .a).intent = (s.dev .b).intent →
      (s.dev p.src.other).peerIntent &&& 0x01 = 1
  | .restoreCmd d => (s.dev d).restoreCmds ≠ 0 → (s.dev d).preP2pState = .gonegoOk →
      (s.dev d).p2pState = .gonegoOk
  | _ => True

instance (s : P2pAir) : ∀ e, Decidable (s.Undisturbed e)
  | .deliver n _ _ => inferInstanceAs (Decidable (∀ p ∈ s.sent[n]?, p.frame.subtype = .conf →
      (∃ ie ∈ p.frame.p2pIes, ie.status = some p2pStatusSuccess) →
      (s.dev .a).intent = (s.dev .b).intent →
      (s.dev p.src.other).peerIntent &&& 0x01 = 1))
  | .restoreCmd d => inferInstanceAs (Decidable ((s.dev d).restoreCmds ≠ 0 →
      (s.dev d).preP2pState = .gonegoOk → (s.dev d).p2pState = .gonegoOk))
  | .connect _ _ _ => inferInstanceAs (Decidable True)
  | .probeRsp _ _ _ => inferInstanceAs (Decidable True)
  | .restoreTimer _ => inferInstanceAs (Decidable True)
  | .gotWpsinfo _ _ => inferInstanceAs (Decidable True)

theorem Inv.connect {s : P2pAir} (hs : s.Inv) (d : Side) (peerMAC : MacAddr) (ch : ℕ) :
    (s.setDev d ((s.dev d).rtwP2pConnect peerMAC ch)).Inv := by
  unfold P2pDevice.rtwP2pConnect
  dsimp only
  split_ifs
  · exact hs.setDev rfl rfl fun h => ⟨h, rfl⟩
  · exact hs.setDev rfl rfl nofun
  · exact hs.setDev rfl rfl nofun

theorem Inv.restoreTimer {s : P2pAir} (hs : s.Inv) (d : Side) :
    (s.setDev d (s.dev d).restoreP2pStateTimerProcess).Inv := by
  unfold P2pDevice.restoreP2pStateTimerProcess
  split_ifs
  · exact hs.setDev rfl rfl fun h => ⟨h, rfl⟩
  · exact hs.setDev rfl rfl fun h => ⟨h, rfl⟩
  · exact hs.setDev rfl rfl fun h => ⟨h, rfl⟩

theorem Inv.restoreCmd {s : P2pAir} (hs : s.Inv) {d : Side} (h : s.Undisturbed (.restoreCmd d)) :
    (s.setDev d (s.dev d).restoreP2pStateHandler).Inv := by
  unfold P2pDevice.restoreP2pStateHandler
  split_ifs with hc hst
  · exact hs.setDev rfl rfl fun h => ⟨h, rfl⟩
  · refine hs.setDev rfl rfl fun hok => ?_
    have hok' := h hc hok
    rcases hst with hst | hst
    · exact nomatch hst.symm.trans hok'
    · exact nomatch hst.symm.trans hok'
  · exact hs.setDev rfl rfl fun hok => ⟨h hc hok, rfl⟩

theorem Inv.probeRsp {s : P2pAir} (hs : s.Inv) (d : Side) (xmit : Bool) (addr2 : MacAddr) :
    (s.step (.probeRsp d xmit addr2)).Inv := by
  rcases hr : (s.dev d).onProbeRsp xmit addr2 with ⟨w, f?⟩
  have hw : w.intent = (s.dev d).intent ∧ w.peerIntent = (s.dev d).peerIntent ∧
      w.p2pState = (s.dev d).p2pState ∧ w.role = (s.dev d).role ∧
      ∀ f ∈ f?, f.subtype = .req ∧ ∃ ie, f.p2pIes = [ie] ∧
        ie.goIntent = some ((s.dev d).goIntentAttr true) := by
    unfold P2pDevice.onProbeRsp P2pDevice.issueP2pGORequest at hr
    split_ifs at hr
    · cases hr
      refine ⟨rfl, rfl, rfl, rfl, ?_⟩
      rintro f ⟨⟩
      exact ⟨rfl, _, rfl, rfl⟩
    · cases hr
      exact ⟨rfl, rfl, rfl, rfl, nofun⟩
    · cases hr
      exact ⟨rfl, rfl, rfl, rfl, nofun⟩
  obtain ⟨hi, hp, hst, hrole, hf⟩ := hw
  have hstep : s.step (.probeRsp d xmit addr2) =
      { (s.setDev d w).transmit d (d, s.requests) f? with
        requests := s.requests + (if f?.isSome then 1 else 0) } := by
    simp only [step, hr]
  rw [hstep]
  have hdev : DevStep s { (s.setDev d w).transmit d (d, s.requests) f? with
        requests := s.requests + (if f?.isSome then 1 else 0) } d :=
    { others := Function.update_of_ne d.other_ne _ _
      intent := by simpa [P2pAir.setDev, transmit] using hi
      recorded := fun h => by
        simp only [P2pAir.setDev, transmit, Function.update_self, hp]
        exact h }
  refine hdev.inv hs ?_ rfl ?_
  · intro p hp
    simp only [transmit, P2pAir.setDev, List.mem_append, Option.mem_toList,
      Option.map_eq_some_iff] at hp
    rcases hp with hp | ⟨f, hf', rfl⟩
    · exact Or.inl hp
    · obtain ⟨h1, ie, h2, h3⟩ := hf f hf'
      refine Or.inr ?_
      unfold PacketOk
      rw [hdev.intent_eq]
      simp only [h1]
      exact ⟨trivial, ie, _, h2, h3, P2pDevice.goIntentAttr_shiftRight _ _,
        P2pDevice.goIntentAttr_and_one _ _⟩
  · intro e he hok
    simp only [transmit, P2pAir.setDev, Function.update_self] at hok ⊢
    rw [hrole]
    exact hs.roles d e he (hst.symm.trans hok)

/-- What a delivery changes. -/
theorem deliver_cases (s : P2pAir) (p : P2pPacket) (xmit retry : Bool) :
    s.deliver p xmit retry = s ∨ ∃ w f?,
      (s.dev p.src.other).onActionPublicP2p xmit retry p.frame = (w, f?) ∧
      (s.deliver p xmit retry).dev = Function.update s.dev p.src.other w ∧
      (s.deliver p xmit retry).sent =
        s.sent ++ (f?.map fun f => ⟨p.src.other, p.exch, f⟩).toList ∧
      (s.deliver p xmit retry).exch =
        if (s.dev p.src.other).entersOk xmit retry p.frame then
          Function.update s.exch p.src.other (some p.exch)
        else s.exch := by
  unfold deliver
  rcases hw : (s.dev p.src.other).onActionPublicP2p xmit retry p.frame with ⟨w, f?⟩
  simp only [hw]
  split_ifs with h1 h2
  · exact Or.inl rfl
  · exact Or.inl rfl
  · exact Or.inr ⟨w, f?, rfl, rfl, rfl, rfl⟩
  · exact Or.inr ⟨w, f?, rfl, rfl, rfl, rfl⟩

/-- A delivery keeps the invariant if what the frame makes the device send is in order and
leaves it in `GONEGO_OK` only with the right role. -/
theorem Inv.deliver_of {s : P2pAir} (hs : s.Inv) {p : P2pPacket} {xmit retry : Bool}
    (h : ∀ w f?, (s.dev p.src.other).onActionPublicP2p xmit retry p.frame = (w, f?) →
      w.intent = (s.dev p.src.other).intent ∧
      (w.peerIntent = (s.dev p.src.other).peerIntent ∨
        (w.peerIntent >>> 1).toNat = (s.dev p.src).intent) ∧
      (∀ s', DevStep s s' p.src.other → s'.dev p.src.other = w → ∀ f ∈ f?,
        s'.PacketOk ⟨p.src.other, p.exch, f⟩) ∧
      (w.p2pState = .gonegoOk →
        if (s.dev p.src.other).entersOk xmit retry p.frame then
          w.role = s.roleIn p.src.other p.exch
        else (s.dev p.src.other).p2pState = .gonegoOk ∧ w.role = (s.dev p.src.other).role)) :
    (s.deliver p xmit retry).Inv := by
  rcases s.deliver_cases p xmit retry with hd | ⟨w, f?, hw, hdev, hsent, hexch⟩
  · rw [hd]
    exact hs
  obtain ⟨hi, hp, hf, hok⟩ := h w f? hw
  have hself : (s.deliver p xmit retry).dev p.src.other = w := by
    rw [hdev, Function.update_self]
  have hstep : DevStep s (s.deliver p xmit retry) p.src.other :=
    { others := by rw [hdev, Function.update_of_ne (Side.other_ne _)]
      intent := by rw [hself, hi]
      recorded := by
        intro hr
        rw [hself]
        rcases hp with hp | hp
        · rw [hp]
          exact hr
        · rw [Side.other_other]
          exact hp }
  refine hstep.inv hs ?_ ?_ ?_
  · intro q hq
    rw [hsent, List.mem_append, Option.mem_toList, Option.map_eq_some_iff] at hq
    rcases hq with hq | ⟨f, hf', rfl⟩
    · exact Or.inl hq
    · exact Or.inr (hf _ hstep hself f hf')
  · rw [hexch]
    split_ifs
    · rw [Function.update_of_ne (Side.other_ne _)]
    · rfl
  · intro e he hst
    rw [hself] at hst ⊢
    have hrole := hok hst
    rw [hexch] at he
    split_ifs at he hrole with hent
    · rw [Function.update_self] at he
      cases he
      exact hrole
    · rw [hrole.2]
      exact hs.roles _ e he hrole.1

/-- Only a confirm brings a device into `GONEGO_OK` that is there. -/
theorem not_entersOk {w : P2pDevice} {xmit retry : Bool} {f : NegoFrame}
    (hsub : f.subtype ≠ .conf) (hw : w.p2pState = .gonegoOk) :
    ¬ w.entersOk xmit retry f := by
  simp [P2pDevice.entersOk, hsub, hw]

theorem entersOk_of_ne {w w' : P2pDevice} {xmit retry : Bool} {f : NegoFrame}
    {f? : Option NegoFrame} (h : w.onActionPublicP2p xmit retry f = (w', f?))
    (hw : w.p2pState ≠ .gonegoOk) (hw' : w'.p2pState = .gonegoOk) :
    w.entersOk xmit retry f := by
  simp [P2pDevice.entersOk, h, hw, hw']

theorem Inv.deliver_req {s : P2pAir} (hs : s.Inv) {p : P2pPacket} (hp : s.PacketOk p)
    (hsub : p.frame.subtype = .req) (xmit retry : Bool) : (s.deliver p xmit retry).Inv := by
  simp only [PacketOk, hsub] at hp
  obtain ⟨hexch, ie, g, hies, hgo, hg, htie⟩ := hp
  refine hs.deliver_of fun w f? hw => ?_
  have hne : p.frame.subtype ≠ .conf := by
    rw [hsub]
    exact nofun
  obtain ⟨q, t, ⟨rfl, rfl, -⟩ | ⟨-, hreq⟩⟩ := P2pDevice.onActionPublicP2p_cases hw
  · refine ⟨rfl, Or.inl rfl, nofun, fun hok => ?_⟩
    rw [if_neg (not_entersOk (w := s.dev p.src.other) hne hok)]
    exact ⟨hok, rfl⟩
  · simp only [hsub] at hreq
    obtain ⟨hi, hpi, hst, hf⟩ := P2pDevice.onGoNegoReq_spec hies hgo hreq
    refine ⟨hi, ?_, ?_, fun hok => absurd hok hst⟩
    · rcases hpi with hpi | hpi
      · exact Or.inl hpi
      · rw [hpi]
        exact Or.inr hg
    · intro s' hstep hself f hf'
      obtain ⟨h1, h2, ie', st, h3, h4, h5⟩ := hf f hf'
      unfold PacketOk
      simp only [h1]
      refine ⟨by rw [hexch, Side.other_other], h2, ie', st, h3, h4, ?_⟩
      intro hgrant
      obtain ⟨h6, h7⟩ := h5 hgrant
      refine ⟨?_, _, h7, ?_, ?_⟩
      · unfold Recorded
        rw [hself, h6, Side.other_other, hstep.intent_eq]
        exact hg
      · rw [hself]
        exact P2pDevice.goIntentAttr_shiftRight _ _
      · rw [P2pDevice.goIntentAttr_and_one, htie]
        rfl

theorem Inv.deliver_resp {s : P2pAir} (hs : s.Inv) {p : P2pPacket} (hp : s.PacketOk p)
    (hsub : p.frame.subtype = .resp) (xmit retry : Bool) : (s.deliver p xmit retry).Inv := by
  simp only [PacketOk, hsub] at hp
  obtain ⟨hexch, hwps, ie, st, hies, hst, hgrant⟩ := hp
  refine hs.deliver_of fun w f? hw => ?_
  have hne : p.frame.subtype ≠ .conf := by
    rw [hsub]
    exact nofun
  obtain ⟨q, t, ⟨rfl, rfl, -⟩ | ⟨-, hresp⟩⟩ := P2pDevice.onActionPublicP2p_cases hw
  · refine ⟨rfl, Or.inl rfl, nofun, fun hok => ?_⟩
    rw [if_neg (not_entersOk (w := s.dev p.src.other) hne hok)]
    exact ⟨hok, rfl⟩
  simp only [hsub] at hresp
  obtain ⟨g, hg⟩ : ∃ g, st = p2pStatusSuccess → ie.goIntent = some g ∧
      (g >>> 1).toNat = (s.dev p.src).intent ∧ g &&& 0x01 = 0 := by
    rcases eq_or_ne st p2pStatusSuccess with hst' | hst'
    · obtain ⟨-, g, hg⟩ := hgrant hst'
      exact ⟨g, fun _ => hg⟩
    · exact ⟨0, fun h => absurd h hst'⟩
  obtain ⟨hi, hpi, hrole, hf⟩ := P2pDevice.onGoNegoResp_spec hwps hies hst (fun h => (hg h).1) hresp
  refine ⟨hi, ?_, ?_, ?_⟩
  · rcases hpi with hpi | ⟨hok, hpi⟩
    · exact Or.inl hpi
    · rw [hpi]
      exact Or.inr (hg hok).2.1
  · intro s' hstep hself f hf'
    obtain ⟨h1, ie', st', h2, h3, h4⟩ := hf f hf'
    unfold PacketOk
    simp only [h1]
    refine ⟨hexch, ie', st', h2, h3, fun hst' => ?_⟩
    rw [Side.other_other]
    exact hstep.recorded_mono (hgrant (h4 hst')).1
  · intro hok
    rcases hrole hok with ⟨hwas, hr⟩ | ⟨hwas, hst', hr⟩
    · rw [if_neg (not_entersOk (w := s.dev p.src.other) hne hwas)]
      exact ⟨hwas, hr⟩
    · obtain ⟨-, hj, htie⟩ := hg hst'
      rw [if_pos (entersOk_of_ne (w := s.dev p.src.other) hw hwas hok), hr,
        P2pDevice.roleByIntent_eq _ hj, roleIn, Side.other_other, if_pos hexch,
        if_neg (not_not.2 htie)]

theorem intent_ab {s : P2pAir} {d : Side} (h : (s.dev d).intent = (s.dev d.other).intent) :
    (s.dev .a).intent = (s.dev .b).intent := by
  cases d
  exacts [h, h.symm]

theorem Inv.deliver_conf {s : P2pAir} (hs : s.Inv) {p : P2pPacket} (hp : s.PacketOk p)
    (hsub : p.frame.subtype = .conf) (xmit retry : Bool)
    (hlast : (∃ ie ∈ p.frame.p2pIes, ie.status = some p2pStatusSuccess) →
      (s.dev .a).intent = (s.dev .b).intent →
      (s.dev p.src.other).peerIntent &&& 0x01 = 1) : (s.deliver p xmit retry).Inv := by
  simp only [PacketOk, hsub] at hp
  obtain ⟨hexch, ie, st, hies, hst, hgrant⟩ := hp
  refine hs.deliver_of fun w f? hw => ?_
  have hent : (s.dev p.src.other).entersOk xmit retry p.frame =
      decide (w.p2pState = .gonegoOk ∧ ((s.dev p.src.other).p2pState ≠ .gonegoOk ∨
        ((s.dev p.src.other).rtwActionPublicDecache p.frame retry).isSome)) := by
    simp only [P2pDevice.entersOk, hw, hsub, true_and]
  obtain ⟨q, t, ⟨rfl, rfl, hseen⟩ | ⟨hnew, hconf⟩⟩ := P2pDevice.onActionPublicP2p_cases hw
  · refine ⟨rfl, Or.inl rfl, nofun, fun hok => ?_⟩
    have hno : ¬ (s.dev p.src.other).entersOk xmit retry p.frame := by
      rw [hent, decide_eq_true_iff]
      rintro ⟨-, hwas | hnew⟩
      · exact hwas hok
      · exact hseen hnew hok
    rw [if_neg hno]
    exact ⟨hok, rfl⟩
  simp only [hsub] at hconf
  cases hconf
  rcases eq_or_ne st p2pStatusSuccess with rfl | hst'
  · obtain ⟨h1, h2, h3⟩ := P2pDevice.processConfirm_granted
      (w := { s.dev p.src.other with actionPublicRxseq := q, actionPublicDialogToken := t })
      hies hst
    refine ⟨h1, Or.inl h2, nofun, fun hok => ?_⟩
    have hyes : (s.dev p.src.other).entersOk xmit retry p.frame := by
      rw [hent, decide_eq_true_iff]
      exact ⟨hok, Or.inr hnew⟩
    have hrec : ((s.dev p.src.other).peerIntent >>> 1).toNat = (s.dev p.src.other.other).intent :=
      hgrant rfl
    have hne : p.exch.1 ≠ p.src.other := by
      rw [hexch]
      exact (Side.other_ne _).symm
    rw [if_pos hyes, h3, P2pDevice.roleByIntent_eq _ hrec, roleIn, if_neg hne]
    -- only the tie is left, and there the last intent is that of a request
    split_ifs with heq htie
    · rfl
    · refine absurd ?_ htie
      have htie' := hlast ⟨ie, by simp [hies], hst⟩ (intent_ab heq)
      rw [htie']
      decide
    · rfl
    · rfl
  · obtain ⟨h1, h2, h3⟩ := P2pDevice.processConfirm_refused
      (w := { s.dev p.src.other with actionPublicRxseq := q, actionPublicDialogToken := t })
      hies hst hst'
    exact ⟨h1, Or.inl h2, nofun, fun hok => absurd hok h3⟩

theorem Inv.step {s : P2pAir} (hs : s.Inv) {e : P2pEvent} (h : s.Undisturbed e) :
    (s.step e).Inv := by
  cases e with
  | connect d peerMAC ch => exact hs.connect d peerMAC ch
  | probeRsp d xmit addr2 => exact hs.probeRsp d xmit addr2
  | deliver n xmit retry =>
    simp only [P2pAir.step]
    cases hp : s.sent[n]? with
    | none => exact hs
    | some p =>
      have hok := hs.packets p (List.mem_of_getElem? hp)
      cases hsub : p.frame.subtype with
      | req => exact hs.deliver_req hok hsub xmit retry
      | resp => exact hs.deliver_resp hok hsub xmit retry
      | conf => exact hs.deliver_conf hok hsub xmit retry (h p hp hsub)
  | restoreTimer d => exact hs.restoreTimer d
  | restoreCmd d => exact hs.restoreCmd h
  | gotWpsinfo d info => exact hs.setDev rfl rfl fun h => ⟨h, rfl⟩

/-- Over every run in which no event disturbs the negotiation, the devices that are in
`GONEGO_OK` for the same exchange have agreed who owns the group. -/
theorem rolesAgree_run {s : P2pAir} (h : s.Start) {es : List P2pEvent}
    (hes : Runs.Along step Undisturbed s es) : (s.run es).RolesAgree := by
  have hinv : (s.run es).Inv :=
    Runs.invariant_along (I := Inv) (fun _ _ hu he => hu.step he) es h.inv hes
  exact hinv.rolesAgree

/-- A device that listens, with the intent 7. -/
def sampleDevice (myid : MacAddr) : P2pDevice where
  myid := myid
  p2pState := .listen
  preP2pState := .listen
  role := .device
  intent := 7
  peerIntent := 0
  uiGotWpsInfo := .pbc
  operatingChannel := 6
  peerOperatingCh := 0
  channelListAttr := []
  negotiationDialogToken := 1
  benable := false
  peerDevAddr := zeroAddr
  restoreTimer := false
  restoreCmds := 0
  channelSet := [1, 6, 11]
  channelList := [⟨0x51, [1, 6, 11]⟩]
  mgntSeq := 0
  actionPublicRxseq := 0
  actionPublicDialogToken := 0

def sampleAddrA : MacAddr := #v[0, 0xe0, 0x4c, 0, 0, 1]
def sampleAddrB : MacAddr := #v[0, 0xe0, 0x4c, 0, 0, 2]

/-- Two such devices. -/
def sampleAir : P2pAir where
  dev
    | .a => sampleDevice sampleAddrA
    | .b => sampleDevice sampleAddrB
  sent := []
  exch _ := none
  requests := 0

/-- Device `a` asks, `b` answers and `a` confirms. -/
def sampleExchange : List P2pEvent :=
  [.connect .a sampleAddrB 6, .probeRsp .a true sampleAddrB, .deliver 0 true false,
    .deliver 1 true false, .deliver 2 true false]

/-- The exchange of two such devices ends with both in `GONEGO_OK` for it, and agreed. -/
theorem rolesAgree_run_sample : (sampleAir.run sampleExchange).RolesAgree ∧
    (∀ d, ((sampleAir.run sampleExchange).dev d).p2pState = .gonegoOk) ∧
    (∀ d, (sampleAir.run sampleExchange).exch d = some (.a, 0)) := by
  refine ⟨rolesAgree_run ⟨rfl, fun _ => rfl⟩ (by decide), ?_, ?_⟩
  · intro d
    cases d <;> decide
  · intro d
    cases d <;> decide

/-- Both ask, both answer, and `b` takes the confirm of `a`. -/
def crossedRequests : List P2pEvent :=
  [.connect .a sampleAddrB 6, .connect .b sampleAddrA 6,
    .probeRsp .a true sampleAddrB, .probeRsp .b true sampleAddrA,
    .deliver 0 true false, .deliver 1 true false, .deliver 2 true false, .deliver 3 true false,
    .deliver 4 true false]

/-- When the requests of two devices with equal intents cross, both end as group owner. -/
theorem not_rolesAgree : sampleAir.Start ∧
    (∀ d, ((sampleAir.run crossedRequests).dev d).role = .go) ∧
    ¬ (sampleAir.run crossedRequests).RolesAgree := by
  refine ⟨⟨rfl, fun _ => rfl⟩, ?_, by decide⟩
  intro d
  cases d <;> decide

end P2pAir

end Rtl8188eu
