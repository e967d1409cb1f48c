import Rtl8188eu.ApRun
import Rtl8188eu.StaTable

/-!
# Shared-key authentication

An access point with shared-key authentication answers frame 1 with a challenge, and wants it back
in frame 3, encrypted under the WEP key. The device decrypts frames in place, so behind the header
of frame 3 are the IV, the algorithm, the sequence number, the status and the challenge element.

`OnAuth` looks for the element behind the IV, but reads the algorithm and the sequence number where
the IV is, and it does not ask whether the frame was protected at all. The frame 3 that `issue_auth`
makes is accepted if its IV reads as a sequence number of 3 (`accepted_frame3_iff`), and a frame 3
that was never encrypted is accepted as well.

`sharedKey_exact` : what `OnAuth` does not look at is what is missing. If every frame with the
sequence number 3 is protected and has the fields of a frame 3 behind its IV, then a station is
authenticated only by a frame 3 with the challenge that was sent to it.
-/

set_option linter.unusedSectionVars false

namespace Rtl8188eu

namespace Ap

open StaTable

variable {ι : Type} [DecidableEq ι] {s s' t : Ap ι} {k j : StaId}

/-! ## What `OnAuth` reads -/

/-- The transmitter of a frame. -/
def rxSa (f : RecvFrame) : MacAddr := macAt f.mem (getAddr2Ptr f.rxData)

/-- The algorithm that `OnAuth` reads. -/
def rxAlgorithm (f : RecvFrame) : ℕ := f.mem.le16 (f.rxData + wlanHdrA3Len)

/-- The sequence number that `OnAuth` reads. -/
def rxSeq (f : RecvFrame) : ℕ := f.mem.le16 (f.rxData + wlanHdrA3Len + 2)

/-- The challenge element that `OnAuth` finds. -/
def rxChallenge (f : RecvFrame) : Option (ℤ × ℕ) :=
  rtwGetIe f.mem (f.rxData + wlanHdrA3Len + 4 + authIeOffset) chlgetxtIe
    ((f.len : ℤ) - wlanHdrA3Len - authIeOffset - 4)

/-- The access point runs with shared-key authentication. -/
def SharedKey (s : Ap ι) : Prop := s.base.securitypriv.dot11AuthAlgrthm.toNat = 1

/-! ## Exchanges -/

/-- The latest frame with a success that was sent to the station is frame 2 with its challenge. -/
def Challenged (s : Ap ι) (k : StaId) : Prop :=
  ∃ body, s.authSent.find? (fun e => e.1 = (s.base.sta k).hwaddr ∧ e.2.status = statsSuccessful) =
      some ((s.base.sta k).hwaddr, body) ∧
    body.seq = 2 ∧ body.challenge = some (s.sta k).chgTxt.toList

/-- A station that can be looked up waits for frame 1, or has its challenge. -/
def ExchangeOk (s : Ap ι) (k : StaId) : Prop :=
  s.Live k → (s.sta k).authSeq = 0 ∨
    (s.sta k).authSeq = 2 ∧ (lookupAddr (s.base.sta k).hwaddr = (s.base.sta k).hwaddr → s.Challenged k)

/-- What authentication frames keep. -/
structure AuthInv (s : Ap ι) : Prop where
  table : ∃ n, TableInv ⟨s.base, n⟩
  exchange : ∀ k, s.ExchangeOk k

/-- What an exchange is about does not change. -/
structure SameAuth (s s' : Ap ι) : Prop where
  base : s'.base = s.base
  sent : s'.authSent = s.authSent
  authSeq : ∀ j, (s'.sta j).authSeq = (s.sta j).authSeq
  chgTxt : ∀ j, (s'.sta j).chgTxt = (s.sta j).chgTxt
  state : ∀ j, (s'.sta j).state = (s.sta j).state

theorem SameAuth.refl (s : Ap ι) : SameAuth s s :=
  ⟨rfl, rfl, fun _ => rfl, fun _ => rfl, fun _ => rfl⟩

theorem SameAuth.trans (h : SameAuth s s') (h' : SameAuth s' t) : SameAuth s t :=
  ⟨h'.base.trans h.base, h'.sent.trans h.sent, fun j => (h'.authSeq j).trans (h.authSeq j),
    fun j => (h'.chgTxt j).trans (h.chgTxt j), fun j => (h'.state j).trans (h.state j)⟩

theorem sameAuth_updateSta (s : Ap ι) (k : StaId) {f : ApSta → ApSta}
    (h₁ : (f (s.sta k)).authSeq = (s.sta k).authSeq)
    (h₂ : (f (s.sta k)).chgTxt = (s.sta k).chgTxt) (h₃ : (f (s.sta k)).state = (s.sta k).state) :
    SameAuth s (s.updateSta k f) := by
  refine ⟨rfl, rfl, fun j => ?_, fun j => ?_, fun j => ?_⟩ <;>
    (rcases eq_or_ne j k with rfl | hj
     · simpa [updateSta]
     · simp [updateSta, hj])

/-- `OnAuth` links the client and sets its timeout before it looks at the sequence number. -/
theorem sameAuth_authLink (s : Ap ι) (k : StaId) :
    SameAuth s (if k ∈ s.authList then s else s.authLink k) := by
  split
  · exact SameAuth.refl s
  · exact ⟨rfl, rfl, fun _ => rfl, fun _ => rfl, fun _ => rfl⟩

theorem sameAuth_authTo (s : Ap ι) (k : StaId) :
    SameAuth s (if (s.sta k).authSeq = 0 then
      s.updateSta k fun st => { st with expireTo := s.authTo } else s) := by
  split
  · exact sameAuth_updateSta s k rfl rfl rfl
  · exact SameAuth.refl s

theorem SameAuth.exchangeOk (h : SameAuth s s') (hk : s.ExchangeOk k) : s'.ExchangeOk k := by
  unfold ExchangeOk Challenged Live at hk ⊢
  rw [h.base, h.sent, h.authSeq, h.chgTxt]
  exact hk

theorem SameAuth.authInv (h : SameAuth s s') (hs : AuthInv s) : AuthInv s' :=
  ⟨by rw [h.base]; exact hs.table, fun k => h.exchangeOk (hs.exchange k)⟩

theorem sameAuth_reauth (s : Ap ι) (k : StaId) : SameAuth s (s.reauth k) := by
  unfold reauth
  dsimp only
  split
  · exact ⟨rfl, rfl, fun _ => rfl, fun _ => rfl, fun _ => rfl⟩
  · exact ⟨rfl, rfl, fun _ => rfl, fun _ => rfl, fun _ => rfl⟩

/-! ## Answers -/

/-- A frame to another station, or one that refuses, is not the latest success. -/
theorem ExchangeOk.issueAuth (h : s.ExchangeOk k) (xmit : Bool) {a : MacAddr} (st : ApSta)
    {status : ℕ}
    (ha : lookupAddr (s.base.sta k).hwaddr = (s.base.sta k).hwaddr → s.Live k →
      a = (s.base.sta k).hwaddr → status ≠ statsSuccessful) :
    (s.issueAuth xmit a st status).ExchangeOk k := by
  unfold Ap.issueAuth
  split
  · intro hlive
    rcases h hlive with h0 | ⟨h2, hch⟩
    · exact Or.inl h0
    · refine Or.inr ⟨h2, fun hlook => ?_⟩
      obtain ⟨body, hfind, hbody⟩ := hch hlook
      refine ⟨body, ?_, hbody⟩
      have hno : ¬ (a = (s.base.sta k).hwaddr ∧ (authBody st status).status = statsSuccessful) :=
        fun hc => ha hlook hlive hc.1 hc.2
      change List.find? _ ((a, authBody st status) :: s.authSent) = _
      rw [List.find?_cons_of_neg (by simpa using hno)]
      exact hfind
  · exact h

theorem base_issueAuth (s : Ap ι) (xmit : Bool) (a : MacAddr) (st : ApSta) (status : ℕ) :
    (s.issueAuth xmit a st status).base = s.base ∧ (s.issueAuth xmit a st status).sta = s.sta := by
  unfold issueAuth
  split <;> exact ⟨rfl, rfl⟩

theorem authSent_free (s : Ap ι) (k : StaId) : (s.rtwFreeStainfo k).authSent = s.authSent := by
  simp only [rtwFreeStainfo, record]

theorem exchangeOk_free (h : s.ExchangeOk j) (hj : j ≠ k) : (s.rtwFreeStainfo k).ExchangeOk j := by
  obtain ⟨-, -, haddr, -⟩ := s.base.rtwFreeStainfo_fields k
  obtain ⟨n, hsta⟩ := s.sta_free k
  have hsta : (s.rtwFreeStainfo k).sta j = s.sta j := by
    rw [hsta, Function.update_of_ne hj]
  intro hlive
  unfold Challenged
  rw [hsta, base_free, haddr, authSent_free]
  exact h (live_free.mp hlive).1

/-- A frame is refused : the record goes, and nobody gains anything. -/
theorem authInv_authFail (xmit : Bool) {k : StaId} (hlive : s.Live k) (sa : MacAddr) {status : ℕ}
    (hstatus : status ≠ statsSuccessful) (htable : ∃ n, TableInv ⟨s.base, n⟩)
    (h : ∀ j, j ≠ k → s.ExchangeOk j) : AuthInv (s.authFail xmit (some k) sa status) := by
  obtain ⟨n, htable⟩ := htable
  unfold authFail
  dsimp only
  obtain ⟨hb, -⟩ := base_issueAuth (s.rtwFreeStainfo k) xmit sa
    { initApSta with authSeq := 2 } status
  refine ⟨⟨n - 1, ?_⟩, fun j => ?_⟩
  · have hfree := @tableInv_free ι _ ⟨s.base, n⟩ k htable hlive
    rw [StaTable.rtwFreeStainfo] at hfree
    rw [hb, base_free]
    exact hfree
  · rcases eq_or_ne j k with rfl | hj
    · intro hl
      rw [Live, hb] at hl
      exact absurd rfl (live_free.mp hl).2
    · exact (exchangeOk_free (h j hj) hj).issueAuth xmit _ fun _ _ _ => hstatus

theorem authInv_authFail_none (xmit : Bool) (sa : MacAddr) {status : ℕ}
    (hstatus : status ≠ statsSuccessful)
    (h : AuthInv s) : AuthInv (s.authFail xmit none sa status) := by
  unfold authFail
  dsimp only
  obtain ⟨hb, -⟩ := base_issueAuth s xmit sa { initApSta with authSeq := 2 } status
  refine ⟨by rw [hb]; exact h.table, fun j => ?_⟩
  exact (h.exchange j).issueAuth xmit _ fun _ _ _ => hstatus

/-! ## Accepted frames -/

/-- The record of an accepted frame before its answer. -/
theorem exchangeOk_updateSta (h : s.ExchangeOk j) (hj : j ≠ k) (f : ApSta → ApSta) :
    (s.updateSta k f).ExchangeOk j := by
  have hsta : (s.updateSta k f).sta j = s.sta j := by simp [updateSta, hj]
  intro hlive
  rw [hsta]
  refine (h hlive).imp_right fun h2 => ⟨h2.1, fun hlook => ?_⟩
  obtain ⟨body, hfind, hbody⟩ := h2.2 hlook
  exact ⟨body, hfind, hbody.1, by rw [hsta]; exact hbody.2⟩

/-- The answer to an accepted frame goes to its own station. -/
theorem exchangeOk_authAccept (htable : ∃ n, TableInv ⟨s.base, n⟩) (hlive : s.Live k)
    (h : s.ExchangeOk j)
    (hj : j ≠ k) (xmit : Bool) (n : ℕ) : (s.authAccept xmit k n).ExchangeOk j := by
  obtain ⟨m, htable⟩ := htable
  unfold authAccept
  extract_lets u v
  have hrec : (s.record .authAccept k).ExchangeOk j := h
  have hu : u.ExchangeOk j := exchangeOk_updateSta hrec hj _
  have hv : v.ExchangeOk j := by
    refine hu.issueAuth xmit _ fun hlook hl heq => ?_
    exact absurd (htable.unique j k hl hlive heq.symm hlook) hj
  split
  · exact exchangeOk_updateSta hv hj _
  · exact hv

theorem base_authAccept (s : Ap ι) (xmit : Bool) (k : StaId) (n : ℕ) :
    (s.authAccept xmit k n).base = s.base := by
  unfold authAccept
  extract_lets u v
  have hv : v.base = s.base := (base_issueAuth u xmit _ _ _).1
  split
  · exact hv
  · exact hv

/-- The state of the stations is not touched by an answer. -/
theorem state_authAccept (s : Ap ι) (xmit : Bool) (k j : StaId) (n : ℕ) :
    ((s.authAccept xmit k n).sta j).state = (s.sta j).state := by
  unfold authAccept
  extract_lets u v
  have hu : (u.sta j).state = (s.sta j).state := by
    rcases eq_or_ne j k with rfl | hj
    · simp [u, updateSta, record]
    · simp [u, updateSta, record, hj]
  have hv : v.sta = u.sta := (base_issueAuth u xmit _ _ _).2
  split
  · rcases eq_or_ne j k with rfl | hj
    · simpa [updateSta, hv] using hu
    · simpa [updateSta, hv, hj] using hu
  · rw [hv]
    exact hu

/-- Frame 2 carries the challenge. -/
theorem exchangeOk_frame2 (hstate : hasBits (s.sta k).state wifiFwAuthState = true)
    (halg : (s.sta k).authalg % 2 ^ 16 ≠ 0) : (s.authAccept true k 1).ExchangeOk k := by
  intro _
  unfold authAccept
  extract_lets u v
  have husta : u.sta k = { s.sta k with authSeq := 1 + 1 } := by simp [u, updateSta, record]
  have hv : v.sta = u.sta := (base_issueAuth u true _ _ _).2
  split
  · left
    simp [updateSta]
  · right
    rw [hv, husta]
    refine ⟨rfl, fun _ => ⟨authBody (u.sta k) statsSuccessful, ?_, ?_, ?_⟩⟩
    · change List.find? _ (((u.base.sta k).hwaddr, authBody (u.sta k) statsSuccessful) ::
        u.authSent) = _
      rw [List.find?_cons_of_pos (by simp [authBody, v, issueAuth])]
      rfl
    · rw [husta]
      rfl
    · rw [hv]
      have hcond : (u.sta k).authSeq = 2 ∧ hasBits (u.sta k).state wifiFwAuthState ∧
          statsSuccessful = statsSuccessful ∧ (u.sta k).authalg % 2 ^ 16 ≠ 0 := by
        rw [husta]
        exact ⟨rfl, hstate, rfl, halg⟩
      rw [authBody, if_pos hcond]

/-- A station whose authentication is complete waits for frame 1. -/
theorem exchangeOk_done (xmit : Bool) (n : ℕ) (h : (s.sta k).authSuccess = true) :
    (s.authAccept xmit k n).ExchangeOk k := by
  intro _
  left
  unfold authAccept
  extract_lets u v
  have hv : v.sta = u.sta := (base_issueAuth u xmit _ _ _).2
  have hsucc : (v.sta k).authSuccess = true := by
    rw [hv]
    simpa [u, updateSta, record, ApSta.authSuccess] using h
  rw [if_pos hsucc]
  simp [updateSta]

/-! ## One frame -/

/-- What `OnAuth` finds in a frame 3 that it accepts. -/
structure Frame3 (s : Ap ι) (f : RecvFrame) (k : StaId) : Prop where
  lookup : s.base.rtwGetStainfo (rxSa f) = some k
  algorithm : rxAlgorithm f ≠ 0
  seq : rxSeq f = 3
  challenged : s.Challenged k
  text : ∃ p len, rxChallenge f = some (p, len) ∧ len ≠ 0 ∧ f.mem.read (p + 2) 128 = (s.sta k).chgTxt.toList

/-- The station has a record with `WIFI_FW_AUTH_SUCCESS`. -/
def Succeeded (s : Ap ι) (k : StaId) : Prop := s.Live k ∧ (s.sta k).authSuccess = true

/-- The invariant is kept, and a station succeeds by an accepted frame 3 only. -/
structure FrameOk (s : Ap ι) (f : RecvFrame) (s' : Ap ι) : Prop where
  inv : AuthInv s'
  security : s'.base.securitypriv = s.base.securitypriv
  gain : ∀ k, s'.Succeeded k → s.Succeeded k ∨ s.Frame3 f k

theorem SameAuth.succeeded (h : SameAuth s s') : s'.Succeeded k ↔ s.Succeeded k := by
  unfold Succeeded Live ApSta.authSuccess
  rw [h.base, h.state]

theorem live_issueAuth (s : Ap ι) (xmit : Bool) (a : MacAddr) (st : ApSta) (status : ℕ) :
    (s.issueAuth xmit a st status).Succeeded k ↔ s.Succeeded k := by
  obtain ⟨hb, hsta⟩ := base_issueAuth s xmit a st status
  unfold Succeeded Live
  rw [hb, hsta]

theorem securitypriv_free (s : Adapter ι) (k : StaId) :
    (s.rtwFreeStainfo k).securitypriv = s.securitypriv := by
  have h := s.rtwFreeStainfo_framesOnly k
  unfold Adapter.FramesOnly at h
  rw [h]

theorem securitypriv_authFail (s : Ap ι) (xmit : Bool) (k : StaId) (sa : MacAddr) (status : ℕ) :
    (s.authFail xmit (some k) sa status).base.securitypriv = s.base.securitypriv := by
  unfold authFail
  dsimp only
  rw [(base_issueAuth _ xmit sa _ status).1, base_free, securitypriv_free]

theorem succeeded_authFail {k j : StaId} (xmit : Bool) (sa : MacAddr) (status : ℕ)
    (h : (s.authFail xmit (some k) sa status).Succeeded j) : j ≠ k ∧ s.Succeeded j := by
  unfold authFail at h
  dsimp only at h
  rw [live_issueAuth] at h
  obtain ⟨hlive, hj⟩ := live_free.mp h.1
  obtain ⟨n, hsta⟩ := s.sta_free k
  have hsta : (s.rtwFreeStainfo k).sta j = s.sta j := by
    rw [hsta, Function.update_of_ne hj]
  exact ⟨hj, hlive, by rw [← hsta]; exact h.2⟩

/-- A refused frame. -/
theorem frameOk_authFail {u : Ap ι} (xmit : Bool) (sa : MacAddr) {status : ℕ}
    (hstatus : status ≠ statsSuccessful)
    (f : RecvFrame) (hlive : u.Live k) (hu : AuthInv u)
    (hsec : u.base.securitypriv = s.base.securitypriv)
    (hgain : ∀ j, j ≠ k → u.Succeeded j → s.Succeeded j) : FrameOk s f
    (u.authFail xmit (some k) sa status) := by
  refine ⟨authInv_authFail xmit hlive sa hstatus hu.table fun j _ => hu.exchange j, ?_,
    fun j hj => Or.inl ?_⟩
  · rw [← hsec]
    exact u.securitypriv_authFail xmit k sa status
  obtain ⟨hne, hj⟩ := succeeded_authFail xmit sa status hj
  exact hgain j hne hj

/-- The record of the transmitter, the one that is there or a new one. -/
theorem authStation_some (hs : AuthInv s) {sa : MacAddr} {u : Ap ι}
    (h : s.authStation sa = (some k, u)) :
    AuthInv u ∧ u.Live k ∧ u.base.securitypriv = s.base.securitypriv ∧
      (∀ j, u.Succeeded j → s.Succeeded j) ∧
      (s.base.rtwGetStainfo sa = some k ∧ SameAuth s u ∨ (u.sta k).authSeq = 0) := by
  unfold authStation at h
  split at h
  · rename_i i hi
    obtain ⟨hk, rfl⟩ := Prod.mk.inj h
    obtain rfl := Option.some.inj hk
    have hsame := s.sameAuth_reauth i
    refine ⟨hsame.authInv hs, ?_,
      by rw [hsame.base], fun j => hsame.succeeded.mp, Or.inl ⟨hi, hsame⟩⟩
    rw [Live, hsame.base]
    exact live_of_get hi
  · rename_i hnone
    split at h
    · simp at h
    · rename_i i v hv
      obtain ⟨hk, rfl⟩ := Prod.mk.inj h
      obtain rfl := Option.some.inj hk
      have hlive : v.Live i := (live_alloc hv).mpr (Or.inr rfl)
      obtain ⟨n, htable⟩ := hs.table
      have halloc := @tableInv_alloc ι _ ⟨s.base, n⟩ htable sa hnone
      have hold : ∀ j, j ≠ i → v.Live j → s.Live j :=
        fun j hj hl => ((live_alloc hv).mp hl).resolve_right hj
      obtain ⟨base, hb, hvs⟩ := alloc_eq hv
      obtain ⟨rest, -, -, -, hsta, -⟩ := Adapter.rtwAllocStainfo_eq hb
      have hvb : v.base = base := by
        rw [hvs]
        rfl
      have hsent : v.authSent = s.authSent := by
        rw [hvs]
        rfl
      have hvsta : ∀ j, j ≠ i → v.sta j = s.sta j := fun j hj => by
        rw [hvs]
        simp [record, updateSta, hj]
      have haddr : ∀ j, j ≠ i → (v.base.sta j).hwaddr = (s.base.sta j).hwaddr := fun j hj => by
        rw [hvb, hsta, Function.update_of_ne hj]
      have hsec : v.base.securitypriv = s.base.securitypriv := by
        rw [hvb]
        unfold Adapter.rtwAllocStainfo at hb
        split at hb
        · simp at hb
        · rw [← (Prod.mk.inj hb).2]
          rfl
      refine ⟨⟨⟨n + 1, ?_⟩, fun j => ?_⟩, hlive, hsec, fun j hj => ?_, Or.inr (by simp [updateSta])⟩
      · rw [StaTable.rtwAllocStainfo, hb] at halloc
        rw [show (v.updateSta i fun st => { st with state := wifiFwAuthNull, authSeq := 0 }).base =
          base from hvb]
        exact halloc
      · rcases eq_or_ne j i with rfl | hj
        · exact fun _ => Or.inl (by simp [updateSta])
        · refine exchangeOk_updateSta (fun hl => ?_) hj _
          unfold Challenged
          rw [hvsta j hj, haddr j hj, hsent]
          exact hs.exchange j (hold j hj hl)
      · rcases eq_or_ne j i with rfl | hj'
        · have hbit := hj.2
          simp only [updateSta, Function.update_self, ApSta.authSuccess] at hbit
          exact absurd hbit (by decide)
        · have hbit := hj.2
          simp only [updateSta, Function.update_of_ne hj', hvsta j hj'] at hbit
          exact ⟨hold j hj' hj.1, hbit⟩

theorem le16_lt_two_pow (m : Mem) (p : ℤ) : m.le16 p < 2 ^ 16 := by
  have h0 := (m p).toNat_lt
  have h1 := (m (p + 1)).toNat_lt
  unfold Mem.le16
  omega

/-- The bits of a state in which frame 1 was accepted. -/
theorem authState_set (x : BitVec 32) :
    hasBits ((x &&& ~~~wifiFwAuthNull) ||| wifiFwAuthState) wifiFwAuthState = true ∧
      hasBits ((x &&& ~~~wifiFwAuthNull) ||| wifiFwAuthState) wifiFwAuthSuccess =
        hasBits x wifiFwAuthSuccess := by
  refine ⟨?_, hasBits_update _ _ _ _ (by decide) (by decide)⟩
  rw [hasBits_bit _ (by decide : 9 < 32) (by decide)]
  simp only [BitVec.getElem_or]
  rw [show wifiFwAuthState[9] = true by decide, Bool.or_true]

theorem authComplete_success (s : Ap ι) (k : StaId) (clr : BitVec 32) :
    ((s.authComplete k clr).sta k).authSuccess = true := by
  have hst : ((s.authComplete k clr).sta k).state =
    ((s.sta k).state &&& ~~~clr) ||| wifiFwAuthSuccess := by
    simp [authComplete, updateSta, record]
  rw [ApSta.authSuccess_eq, hst]
  simp only [BitVec.getElem_or]
  rw [show wifiFwAuthSuccess[10] = true by decide, Bool.or_true]

/-- The exchange with a station, without open-system authentication. -/
theorem frameOk_authExchange {u : Ap ι} {f : RecvFrame} (hu : AuthInv u) (hlive : u.Live k)
    (hsec : u.base.securitypriv = s.base.securitypriv)
    (hgain : ∀ j, u.Succeeded j → s.Succeeded j)
    (hfound : s.base.rtwGetStainfo (rxSa f) = some k ∧ SameAuth s u ∨ (u.sta k).authSeq = 0)
    (halg : rxAlgorithm f ≠ 0) :
    FrameOk s f (u.authExchange true k (rxSa f) f (rxAlgorithm f) (rxSeq f) 1) := by
  unfold authExchange
  extract_lets v₁ v
  have hv : SameAuth u v := (sameAuth_authLink u k).trans (sameAuth_authTo v₁ k)
  have hvinv := hv.authInv hu
  have hvlive : v.Live k := by
    rw [Live, hv.base]
    exact hlive
  have hvsec : v.base.securitypriv = s.base.securitypriv := by rw [hv.base, hsec]
  have hvgain : ∀ j, v.Succeeded j → s.Succeeded j := fun j hj => hgain j (hv.succeeded.mp hj)
  have hfail : ∀ status, status ≠ statsSuccessful →
    FrameOk s f (v.authFail true (some k) (rxSa f) status) :=
    fun status hst => frameOk_authFail true (rxSa f) hst f hvlive hvinv hvsec fun j _ => hvgain j
  split
  · exact hfail _ (by decide)
  rename_i hseq
  rw [not_not] at hseq
  split
  · rename_i hopen
    exact absurd hopen.1 halg
  split
  · -- frame 1
    rename_i hone
    rw [hone]
    set w := v.updateSta k fun st =>
      { st with
        state := (st.state &&& ~~~wifiFwAuthNull) ||| wifiFwAuthState
        authalg := rxAlgorithm f, authSeq := 2 } with hw
    have hwk : w.sta k = { v.sta k with
        state := ((v.sta k).state &&& ~~~wifiFwAuthNull) ||| wifiFwAuthState
        authalg := rxAlgorithm f, authSeq := 2 } := by simp [hw, updateSta]
    have hbits := authState_set (v.sta k).state
    have hwbase : w.base = v.base := rfl
    refine ⟨⟨?_, fun j => ?_⟩, by rw [base_authAccept, hwbase, hvsec], fun j hj => Or.inl ?_⟩
    · rw [base_authAccept, hwbase]
      exact hvinv.table
    · rcases eq_or_ne j k with rfl | hj
      · refine exchangeOk_frame2 ?_ ?_
        · rw [hwk]
          exact hbits.1
        · have hwalg : (w.sta j).authalg = rxAlgorithm f := by rw [hwk]
          have hlt : rxAlgorithm f < 2 ^ 16 := le16_lt_two_pow _ _
          rw [hwalg, Nat.mod_eq_of_lt hlt]
          exact halg
      · have hwlive : w.Live k := hvlive
        have hwtable : ∃ n, TableInv ⟨w.base, n⟩ := hvinv.table
        exact exchangeOk_authAccept hwtable hwlive
          (exchangeOk_updateSta (hvinv.exchange j) hj _) hj true 1
    · refine hvgain j ⟨?_, ?_⟩
      · have hl := hj.1
        rwa [Live, base_authAccept] at hl
      · have hbit := hj.2
        rw [ApSta.authSuccess, state_authAccept] at hbit
        rcases eq_or_ne j k with rfl | hne
        · rw [hwk] at hbit
          rw [ApSta.authSuccess, ← hbits.2]
          exact hbit
        · rw [hw, updateSta] at hbit
          simpa [hne, ApSta.authSuccess] using hbit
  split
  · -- frame 3
    rename_i hthree
    have hseq2 : (v.sta k).authSeq = 2 := by omega
    unfold authChallenge
    split
    · exact hfail _ (by decide)
    rename_i p ieLen hie
    split
    · exact hfail _ (by decide)
    rename_i hlen
    split
    · rename_i htext
      have hdone := v.authComplete_success k wifiFwAuthState
      have hbase : (v.authComplete k wifiFwAuthState).base = v.base := rfl
      refine ⟨⟨?_, fun j => ?_⟩, by rw [base_authAccept, hbase, hvsec], fun j hj => ?_⟩
      · rw [base_authAccept, hbase]
        exact hvinv.table
      · rcases eq_or_ne j k with rfl | hj
        · exact exchangeOk_done true 3 hdone
        · have hother : (v.authComplete k wifiFwAuthState).ExchangeOk j :=
            exchangeOk_updateSta (hvinv.exchange j) hj fun st =>
              { st with state := (st.state &&& ~~~wifiFwAuthState) ||| wifiFwAuthSuccess, expireTo := v.assocTo }
          have hdlive : (v.authComplete k wifiFwAuthState).Live k := hvlive
          have hdtable : ∃ n, TableInv ⟨(v.authComplete k wifiFwAuthState).base, n⟩ := hvinv.table
          exact exchangeOk_authAccept hdtable hdlive hother hj true 3
      · rcases eq_or_ne j k with rfl | hne
        · right
          obtain ⟨hget, hsame⟩ := hfound.resolve_right (by rw [← hv.authSeq, hseq2]; decide)
          have hsv := hsame.trans hv
          obtain ⟨n, htable⟩ := hvinv.table
          have hlook : (v.base.sta j).hwaddr = lookupAddr (rxSa f) := by
            rw [← hsv.base] at hget
            exact ((htable.lookup_some (rxSa f) j).mp hget).2
          have hch := ((hvinv.exchange j hvlive).resolve_left (by omega)).2
            (by rw [hlook, lookupAddr_idem])
          unfold Challenged at hch
          rw [hsv.base, hsv.sent, hsv.chgTxt] at hch
          exact ⟨hget, halg, hthree, hch, p, ieLen, hie, hlen, by rw [htext, hsv.chgTxt]⟩
        · left
          refine hvgain j ⟨?_, ?_⟩
          · have hl := hj.1
            rwa [Live, base_authAccept] at hl
          · have hbit := hj.2
            rw [ApSta.authSuccess, state_authAccept] at hbit
            simpa [authComplete, updateSta, record, hne, ApSta.authSuccess] using hbit
    · exact hfail _ (by decide)
  · exact hfail _ (by decide)

/-- One authentication frame. -/
theorem frameOk_onAuth (hs : AuthInv s) (hmode : s.SharedKey) (f : RecvFrame) :
    FrameOk s f (s.onAuth true f) := by
  have hrefuse : ∀ {u : Ap ι} {status : ℕ}, AuthInv u → status ≠ statsSuccessful →
      u.base.securitypriv = s.base.securitypriv → (∀ j, u.Succeeded j → s.Succeeded j) →
      FrameOk s f (u.authFail true none (rxSa f) status) := by
    intro u status hu hst hsec hgain
    refine ⟨authInv_authFail_none true (rxSa f) hst hu, ?_, fun j hj => Or.inl (hgain j ?_)⟩
    · rw [← hsec]
      unfold authFail
      rw [(base_issueAuth u true _ _ _).1]
    unfold authFail at hj
    exact (live_issueAuth u true _ _ _).mp hj
  unfold onAuth
  split
  · exact ⟨hs, rfl, fun j hj => Or.inl hj⟩
  extract_lets sa seq algorithm sec mode
  have hmode1 : mode = 1 := by
    have h1 : sec.dot11AuthAlgrthm.toNat = 1 := hmode
    unfold mode
    rw [if_neg (by rw [h1]; omega), h1]
  split
  · exact hrefuse hs (by decide) rfl fun j hj => hj
  rename_i halg
  have halg0 : rxAlgorithm f ≠ 0 := fun h0 => halg (Or.inr ⟨h0, hmode1⟩)
  split
  · exact hrefuse hs (by decide) rfl fun j hj => hj
  split
  · rename_i u hu
    cases authStation_none hu
    exact hrefuse hs (by decide) rfl fun j hj => hj
  · rename_i k u hu
    obtain ⟨hinv, hlive, hsec, hgain, hfound⟩ := authStation_some hs hu
    rw [hmode1]
    exact frameOk_authExchange hinv hlive hsec hgain hfound halg0

/-! ## Runs -/

/-- A frame as the device hands it over : the bytes behind the IV of a protected frame are decrypted
in place, under the key that the IV names. -/
def decrypted (sec : SecurityPriv) (f : RecvFrame) : RecvFrame :=
  if getPrivacy f.mem f.rxData then
    let g := { f with attrib := { f.attrib with hdrlen := wlanHdrA3Len, ivLen := 4 } }
    let i := Fin.ofNat 4 ((g.mem (g.ivPtr + 3)).toNat >>> 6)
    g.rtwWepDecrypt (sec.dot11DefKey i) (sec.dot11DefKeylen i)
  else f

/-- An authentication frame of the air. The flag says that there is a frame for the answer. -/
def airAuth (s : Ap ι) (e : Bool × RecvFrame) : Ap ι := s.onAuth e.1 (decrypted s.base.securitypriv e.2)

/-- A run of authentication frames. -/
def authRun (s : Ap ι) (es : List (Bool × RecvFrame)) : Ap ι := es.foldl airAuth s

/-- The frame was protected, and behind its IV it decrypts to algorithm 1, sequence number 3 and a
challenge element with the text `c`. -/
structure Genuine (sec : SecurityPriv) (f : RecvFrame) (c : List UInt8) : Prop where
  privacy : getPrivacy f.mem f.rxData = true
  algorithm : (decrypted sec f).mem.le16 (f.rxData + wlanHdrA3Len + 4) = 1
  seq : (decrypted sec f).mem.le16 (f.rxData + wlanHdrA3Len + 4 + 2) = 3
  challenge : ∃ p, rxChallenge (decrypted sec f) = some (p, 128) ∧ (decrypted sec f).mem.read (p + 2) 128 = c

/-- What `OnAuth` does not look at in a frame 3. -/
structure Unchecked (sec : SecurityPriv) (f : RecvFrame) : Prop where
  privacy : getPrivacy f.mem f.rxData = true
  algorithm : (decrypted sec f).mem.le16 (f.rxData + wlanHdrA3Len + 4) = 1
  seq : (decrypted sec f).mem.le16 (f.rxData + wlanHdrA3Len + 4 + 2) = 3
  length : ∀ p len, rxChallenge (decrypted sec f) = some (p, len) → len = 128

/-- A station that succeeds does so by a frame 3 with the challenge of the latest frame 2 to it. -/
def Sound (s : Ap ι) (es : List (Bool × RecvFrame)) : Prop :=
  ∀ pre e post, es = pre ++ e :: post → ∀ k, (s.authRun (pre ++ [e])).Succeeded k →
    ¬ (s.authRun pre).Succeeded k → ∃ c body, Genuine s.base.securitypriv e.2 c ∧
      (s.authRun pre).authSent.find? (fun m =>
          m.1 = ((s.authRun pre).base.sta k).hwaddr ∧ m.2.status = statsSuccessful) =
        some (((s.authRun pre).base.sta k).hwaddr, body) ∧
      body.seq = 2 ∧ body.challenge = some c

/-- No exchange is under way. -/
structure AuthStart (s : Ap ι) : Prop where
  table : ∃ n, TableInv ⟨s.base, n⟩
  authSeq : ∀ k, s.Live k → (s.sta k).authSeq = 0
  sharedKey : s.SharedKey

theorem AuthStart.authInv (h : AuthStart s) : AuthInv s :=
    ⟨h.table, fun k hk => Or.inl (h.authSeq k hk)⟩

theorem authRun_concat (s : Ap ι) (es : List (Bool × RecvFrame)) (e : Bool × RecvFrame) :
    s.authRun (es ++ [e]) = (s.authRun es).airAuth e := by
  rw [authRun, List.foldl_append]
  rfl

theorem authInv_authRun (hs : AuthStart s) :
    ∀ {es : List (Bool × RecvFrame)}, (∀ e ∈ es, e.1 = true) →
    AuthInv (s.authRun es) ∧ (s.authRun es).base.securitypriv = s.base.securitypriv := by
  intro es
  induction es using List.reverseRecOn with
  | nil => exact fun _ => ⟨hs.authInv, rfl⟩
  | append_singleton es e ih =>
    intro hxmit
    obtain ⟨hinv, hsec⟩ := ih fun e he => hxmit e (by simp [he])
    have hmode : (s.authRun es).SharedKey := by
      rw [SharedKey, hsec]
      exact hs.sharedKey
    have hstep := frameOk_onAuth hinv hmode (decrypted (s.authRun es).base.securitypriv e.2)
    rw [authRun_concat, airAuth, hxmit e (by simp)]
    exact ⟨hstep.inv, hstep.security.trans hsec⟩

/-- With every frame 3 as it should be where `OnAuth` does not look, the run is sound. -/
theorem sound_authRun (hs : AuthStart s) {es : List (Bool × RecvFrame)}
    (hes : ∀ e ∈ es, e.1 = true ∧
      (rxSeq (decrypted s.base.securitypriv e.2) = 3 → Unchecked s.base.securitypriv e.2)) : Sound
      s es := by
  rintro pre e post rfl k hk hnot
  obtain ⟨hinv, hsec⟩ :=
    authInv_authRun hs fun e (he : e ∈ pre) => (hes e (List.mem_append_left _ he)).1
  have hmode : (s.authRun pre).SharedKey := by
    rw [SharedKey, hsec]
    exact hs.sharedKey
  obtain ⟨hxmit, hcheck⟩ := hes e (by simp)
  rw [authRun_concat, airAuth, hsec, hxmit] at hk
  have h3 := ((frameOk_onAuth hinv hmode (decrypted s.base.securitypriv e.2)).gain k
    hk).resolve_left hnot
  obtain ⟨body, hfind, hseq, hchal⟩ := h3.challenged
  obtain ⟨p, len, hie, -, htext⟩ := h3.text
  obtain ⟨hprot, halg, hseq3, hlen⟩ := hcheck h3.seq
  obtain rfl := hlen p len hie
  exact ⟨_, body, ⟨hprot, halg, hseq3, p, hie, rfl⟩, hfind, hseq, by rw [hchal, htext]⟩

/-! ## The frame 3 of a client -/

/-- The body of an authentication frame behind the IV. -/
def authBodyBytes (b : AuthBody) : List UInt8 :=
  le16Bytes b.algorithm ++ le16Bytes b.seq ++ le16Bytes b.status ++
    match b.challenge with
    | some text => [chlgetxtIe, 128] ++ text
    | none => []

/-- `rtw_wep_encrypt` on one fragment : the text and its checksum under the key behind the IV. -/
def rtwWepEncrypt (key : Key) (keylength : ℕ) (iv text : List UInt8) : List UInt8 :=
  let (payload, ctx) := arcfourEncrypt (arcfourInit (iv.take 3 ++ key.toList.take keylength)) text
  payload ++ (arcfourEncrypt ctx (getcrc32 text)).1

/-- The IV that `issue_auth` puts in front of frame 3, a 32-bit value. -/
def ivWord (c : Client) : ℕ := c.iv ||| (c.keyIndex.val <<< 30)

/-- `cpu_to_le32`. -/
def le32OfNat (n : ℕ) : List UInt8 := le16Bytes n ++ le16Bytes (n / 2 ^ 16)

/-- The header of a frame of `issue_auth`, protected and with the sequence number `seq` of the
device. -/
def authHeader (c : Client) (bssid : MacAddr) (seq : ℕ) : List UInt8 :=
  ([0xb0, 0x40, 0, 0] : List UInt8) ++ bssid.toList ++ c.macAddr.toList ++ bssid.toList ++ le16Bytes (seq <<< 4)

/-- The frame 3 of `issue_auth`. -/
def frame3Bytes (c : Client) (sec : SecurityPriv) (bssid : MacAddr) (seq : ℕ) : List UInt8 :=
  let iv := le32OfNat (ivWord c)
  let i := sec.dot11PrivacyKeyIndex
  authHeader c bssid seq ++ (iv ++
    rtwWepEncrypt (sec.dot11DefKey i) (sec.dot11DefKeylen i) iv (authBodyBytes (c.authBody 0)))

theorem length_authHeader (c : Client) (bssid : MacAddr) (seq : ℕ) :
    (authHeader c bssid seq).length = 24 := by
  simp [authHeader, le16Bytes]

theorem length_le32OfNat (n : ℕ) : (le32OfNat n).length = 4 := rfl

theorem length_rtwWepEncrypt (key : Key) (keylength : ℕ) (iv text : List UInt8) :
    (rtwWepEncrypt key keylength iv text).length = text.length + 4 := by
  simp only [rtwWepEncrypt, List.length_append, length_arcfourEncrypt, length_getcrc32]

/-- Decrypting gives the text and its checksum. -/
theorem arcfour_rtwWepEncrypt (key : Key) (keylength : ℕ) (iv text : List UInt8) :
    (arcfourEncrypt (arcfourInit (iv.take 3 ++ key.toList.take keylength))
      (rtwWepEncrypt key keylength iv text)).1 = text ++ getcrc32 text := by
  have happ := arcfourEncrypt_append (arcfourInit (iv.take 3 ++ key.toList.take keylength)) text
    (getcrc32 text)
  simp only [rtwWepEncrypt]
  rw [← happ, arcfourEncrypt_involutive]

theorem length_authBodyBytes_le (c : Client) : (authBodyBytes (c.authBody 0)).length ≤ 136 := by
  unfold authBodyBytes
  cases hc : (c.authBody 0).challenge with
  | none => simp [le16Bytes]
  | some text =>
    have hlen : text.length = 128 := by
      unfold Client.authBody at hc
      dsimp only at hc
      split at hc
      · cases hc
        exact Mem.length_read ..
      · simp at hc
    simp [le16Bytes, hlen]

theorem le16_holds {m : Mem} {p : ℤ} {n : ℕ} (h : m.Holds p (le16Bytes n)) :
    m.le16 p = n % 2 ^ 16 := by
  rw [le16Bytes, Mem.holds_cons, Mem.holds_cons] at h
  rw [Mem.le16, h.1, h.2.1, UInt8.toNat_ofNat', UInt8.toNat_ofNat']
  omega

/-- The key index in the IV. -/
def ivKeyIndex (c : Client) : Fin 4 := Fin.ofNat 4 (ivWord c / 2 ^ 30)

variable {c : Client} {csec sec : SecurityPriv} {bssid : MacAddr} {seq : ℕ} {f : RecvFrame}

/-- The frame 3 of a client with the same key, decrypted in place. -/
theorem holds_decrypted (hlen : f.len = (frame3Bytes c csec bssid seq).length)
    (hmem : f.mem.Holds f.rxData (frame3Bytes c csec bssid seq))
    (hkey : sec.dot11DefKey (ivKeyIndex c) = csec.dot11DefKey csec.dot11PrivacyKeyIndex)
    (hkeylen : sec.dot11DefKeylen (ivKeyIndex c) = csec.dot11DefKeylen csec.dot11PrivacyKeyIndex) :
    (decrypted sec f).mem.Holds f.rxData (authHeader c bssid seq ++ (le32OfNat (ivWord c) ++
      (authBodyBytes (c.authBody 0) ++ getcrc32 (authBodyBytes (c.authBody 0))))) := by
  unfold frame3Bytes at hmem hlen
  dsimp only at hmem hlen
  set text := authBodyBytes (c.authBody 0)
  set cipher := rtwWepEncrypt (csec.dot11DefKey csec.dot11PrivacyKeyIndex)
    (csec.dot11DefKeylen csec.dot11PrivacyKeyIndex) (le32OfNat (ivWord c)) text with hcipher
  have hclen : cipher.length = text.length + 4 := length_rtwWepEncrypt ..
  obtain ⟨hhdr, hrest⟩ := Mem.holds_append.mp hmem
  obtain ⟨hiv, hbody⟩ := Mem.holds_append.mp hrest
  rw [length_authHeader] at hrest hiv hbody
  rw [length_le32OfNat] at hbody
  -- the frame is protected
  have hpriv : getPrivacy f.mem f.rxData = true := by
    unfold authHeader at hhdr
    simp only [List.cons_append, Mem.holds_cons] at hhdr
    rw [getPrivacy, Mem.le16, hhdr.1, hhdr.2.1]
    decide
  have hindex : Fin.ofNat 4 ((f.mem (f.rxData + 24 + 3)).toNat >>> 6) = ivKeyIndex c := by
    unfold le32OfNat le16Bytes at hiv
    simp only [List.cons_append, List.nil_append, Mem.holds_cons] at hiv
    rw [show f.rxData + 24 + 3 = f.rxData + (24 : ℕ) + 1 + 1 + 1 by
      push_cast; ring, hiv.2.2.2.1, ivKeyIndex,
      UInt8.toNat_ofNat', Nat.shiftRight_eq_div_pow]
    apply Fin.ext
    simp only [Fin.ofNat]
    omega
  have hread : f.mem.read (f.rxData + 24) 3 = (le32OfNat (ivWord c)).take 3 := by
    have h4 := hiv
    rw [Mem.Holds, length_le32OfNat, show 4 = 3 + 1 from rfl, Mem.read_add] at h4
    rw [← h4, List.take_left' (by simp)]
    rfl
  have hplen : u32 ((f.len : ℤ) - (wlanHdrA3Len : ℕ) - (4 : ℕ)) = cipher.length := by
    rw [hlen, List.length_append, List.length_append, length_authHeader, length_le32OfNat]
    have htext : text.length ≤ 136 := length_authBodyBytes_le c
    unfold u32 wlanHdrA3Len
    omega
  have hdec : (decrypted sec f).mem =
      f.mem.write (f.rxData + 28) (text ++ getcrc32 text) := by
    unfold decrypted
    rw [if_pos hpriv]
    simp only [RecvFrame.rtwWepDecrypt, RecvFrame.arcfourPayload, RecvFrame.payloadPtr,
      RecvFrame.payloadLen,
      RecvFrame.ivPtr, hplen]
    have hptr : f.rxData + ((4 : ℕ) : ℤ) + (wlanHdrA3Len : ℕ) = f.rxData + 28 := by
      simp only [wlanHdrA3Len]
      push_cast
      ring
    have hivp : f.rxData + ((wlanHdrA3Len : ℕ) : ℤ) = f.rxData + 24 := rfl
    have hb : f.mem.read (f.rxData + 28) cipher.length = cipher := by
      have hb := hbody
      rw [show f.rxData + ((24 : ℕ) : ℤ) + ((4 : ℕ) : ℤ) = f.rxData + 28 by push_cast; ring] at hb
      exact hb
    rw [hptr, hivp, hread, hindex, hkey, hkeylen, hb, hcipher, arcfour_rtwWepEncrypt]
  rw [hdec, ← List.append_assoc, Mem.holds_append]
  have hlen28 : (authHeader c bssid seq ++ le32OfNat (ivWord c)).length = 28 := by
    rw [List.length_append, length_authHeader, length_le32OfNat]
  refine ⟨?_, ?_⟩
  · have hfront : f.mem.Holds f.rxData (authHeader c bssid seq ++ le32OfNat (ivWord c)) :=
      Mem.holds_append.mpr ⟨hhdr, by rw [length_authHeader]; exact hiv⟩
    rw [Mem.Holds, Mem.read_write_of_disjoint _ (Or.inl (by rw [hlen28]; norm_num))]
    exact hfront
  · rw [hlen28]
    exact Mem.read_write_self ..

theorem rxData_decrypted (sec : SecurityPriv) (f : RecvFrame) :
    (decrypted sec f).rxData = f.rxData ∧ (decrypted sec f).len = f.len := by
  unfold decrypted
  split
  · exact ⟨rfl, rfl⟩
  · exact ⟨rfl, rfl⟩

/-- The body of frame 3 is the challenge behind the fixed fields. -/
theorem authBodyBytes_frame3 (h : c.sendsChallenge = true) :
    authBodyBytes (c.authBody 0) =
      le16Bytes 1 ++ le16Bytes 3 ++ le16Bytes 0 ++ ([chlgetxtIe, 128] ++ c.chgTxt) := by
  have hs := h
  unfold Client.sendsChallenge at hs
  simp only [Bool.and_eq_true, decide_eq_true_eq] at hs
  obtain ⟨⟨hseq, -⟩, halgo⟩ := hs
  simp only [authBodyBytes, Client.authBody, h, if_true, hseq, halgo]
  rfl

/-- What `OnAuth` reads in the frame 3 of a client : the IV is taken for the algorithm and the
sequence number, which are behind it, and the challenge is found. -/
structure ReadsIv (c : Client) (g : RecvFrame) : Prop where
  sa : rxSa g = c.macAddr
  algorithm : rxAlgorithm g = ivWord c % 2 ^ 16
  seq : rxSeq g = ivWord c / 2 ^ 16 % 2 ^ 16
  behind : g.mem.le16 (g.rxData + wlanHdrA3Len + 4) = 1 ∧ g.mem.le16 (g.rxData + wlanHdrA3Len + 4 + 2) = 3
  challenge : ∃ p, rxChallenge g = some (p, 128) ∧ g.mem.read (p + 2) 128 = c.chgTxt

/-- A client leaves nothing out that `OnAuth` does not look at. -/
theorem ReadsIv.unchecked (h : ReadsIv c (decrypted sec f)) (hp : getPrivacy f.mem f.rxData = true) :
    Unchecked sec f := by
  obtain ⟨halgo, hseq⟩ := h.behind
  rw [(rxData_decrypted sec f).1] at halgo hseq
  refine ⟨hp, halgo, hseq, fun p len hfound => ?_⟩
  obtain ⟨p', hp', -⟩ := h.challenge
  rw [hp'] at hfound
  cases hfound
  rfl

theorem readsIv_decrypted (hsends : c.sendsChallenge = true)
    (hlen : f.len = (frame3Bytes c csec bssid seq).length)
    (hmem : f.mem.Holds f.rxData (frame3Bytes c csec bssid seq))
    (hkey : sec.dot11DefKey (ivKeyIndex c) = csec.dot11DefKey csec.dot11PrivacyKeyIndex)
    (hkeylen : sec.dot11DefKeylen (ivKeyIndex c) = csec.dot11DefKeylen csec.dot11PrivacyKeyIndex) :
    ReadsIv c (decrypted sec f) := by
  have hall := holds_decrypted hlen hmem hkey hkeylen
  obtain ⟨hdata, hflen⟩ := rxData_decrypted sec f
  have htotal : f.len = 24 + (4 + (136 + 4)) := by
    rw [hlen, frame3Bytes, List.length_append, List.length_append, length_authHeader,
      length_le32OfNat,
      length_rtwWepEncrypt, authBodyBytes_frame3 hsends]
    simp [le16Bytes, Client.chgTxt, chgTxtLen]
  rw [authBodyBytes_frame3 hsends, authHeader] at hall
  simp only [le32OfNat, Mem.holds_append, List.length_append, Vector.length_toList,
    List.length_cons,
    List.length_nil] at hall
  obtain ⟨⟨⟨⟨⟨-, -⟩, haddr2⟩, -⟩, -⟩, ⟨⟨hlow, hhigh⟩, ⟨⟨⟨halgo, hseq⟩, -⟩, helem, htext⟩, -⟩⟩ := hall
  have hl16 : ∀ n, (le16Bytes n).length = 2 := fun n => rfl
  simp only [hl16] at hlow hhigh halgo hseq helem htext
  rw [Mem.holds_cons, Mem.holds_cons] at helem
  obtain ⟨hid, hsize, -⟩ := helem
  have hptr : f.rxData + ((0 + 1 + 1 + 1 + 1 + 6 + 6 + 6 + 2 : ℕ) : ℤ) + ((2 + 2 : ℕ) : ℤ) +
    ((2 + 2 + 2 : ℕ) : ℤ) =
      f.rxData + 34 := by
    push_cast
    ring
  rw [hptr] at hid hsize htext
  refine ⟨?_, ?_, ?_, ⟨?_, ?_⟩, f.rxData + 34, ?_, ?_⟩
  · refine macAt_of_holds ?_
    rw [hdata]
    exact haddr2
  · rw [rxAlgorithm, hdata]
    exact le16_holds hlow
  · rw [rxSeq, hdata]
    exact le16_holds hhigh
  · rw [hdata]
    exact le16_holds halgo
  · rw [hdata]
    exact le16_holds hseq
  · have hp : f.rxData + (wlanHdrA3Len : ℕ) + 4 + (authIeOffset : ℕ) = f.rxData + 34 := by
      unfold wlanHdrA3Len authIeOffset
      push_cast
      ring
    rw [rxChallenge, hdata, hflen, htotal, hp, rtwGetIe_of_head (by decide) hid, hsize]
    rfl
  · have hlen128 : c.chgTxt.length = 128 := Mem.length_read ..
    rw [Mem.Holds, hlen128] at htext
    exact htext

/-- The access point waits for frame 3 of the client, and the client has the challenge. -/
structure Waits (t : Ap ι) (c : Client) (k : StaId) : Prop where
  apState : t.base.mlmeext.state &&& 0x03 = wifiFwApState
  sharedKey : t.SharedKey
  access : t.rtwAccessCtrl c.macAddr = true
  lookup : t.base.rtwGetStainfo c.macAddr = some k
  authSeq : (t.sta k).authSeq = 2
  challenge : (t.sta k).chgTxt.toList = c.chgTxt
  pending : (t.sta k).authSuccess = false

/-- A frame 3 whose challenge is right is accepted by its sequence number. -/
theorem succeeded_authExchange {u : Ap ι} (xmit : Bool) {g : RecvFrame} {algorithm n : ℕ}
    {sa : MacAddr}
    (hlive : u.Live k) (hseq : (u.sta k).authSeq = 2) (halg : algorithm ≠ 0)
    (htext : ∃ p, rxChallenge g = some (p, 128) ∧
    g.mem.read (p + 2) 128 = (u.sta k).chgTxt.toList) :
    (u.authExchange xmit k sa g algorithm n 1).Succeeded k ↔ n = 3 := by
  unfold authExchange
  extract_lets v₁ v
  have hv : SameAuth u v := (sameAuth_authLink u k).trans (sameAuth_authTo v₁ k)
  rw [hv.authSeq, hseq]
  split
  · rename_i hne
    refine ⟨fun h => ?_, fun h => absurd h.symm hne⟩
    exact absurd rfl (succeeded_authFail xmit sa _ h).1
  rename_i hn
  rw [not_not] at hn
  rw [if_neg (by rintro ⟨h0, -⟩; exact halg h0), if_neg (by omega), if_pos hn.symm]
  refine iff_of_true ?_ hn.symm
  obtain ⟨p, hie, hread⟩ := htext
  unfold rxChallenge at hie
  unfold authChallenge
  rw [hie]
  dsimp only
  rw [if_neg (by decide), hv.chgTxt, if_pos hread]
  have hdone := v.authComplete_success k wifiFwAuthState
  have hvlive : v.Live k := by
    rw [Live, hv.base]
    exact hlive
  refine ⟨?_, ?_⟩
  · rw [Live, base_authAccept]
    exact hvlive
  · rw [ApSta.authSuccess, state_authAccept]
    exact hdone

/-- The frame 3 of a client is accepted if its IV reads as an algorithm and a sequence number of
3. -/
theorem accepted_frame3_iff (h : Waits t c k) (xmit : Bool) {g : RecvFrame} (hg : ReadsIv c g) :
    (t.onAuth xmit g).Succeeded k ↔ ivWord c % 2 ^ 16 ≠ 0 ∧ ivWord c / 2 ^ 16 % 2 ^ 16 = 3 := by
  unfold onAuth
  rw [if_neg (by rw [h.apState]; exact not_not.mpr rfl)]
  extract_lets sa n algorithm tsec mode
  have hsa : sa = c.macAddr := hg.sa
  have halg : algorithm = ivWord c % 2 ^ 16 := hg.algorithm
  have hn : n = ivWord c / 2 ^ 16 % 2 ^ 16 := hg.seq
  have hmode1 : mode = 1 := by
    have h1 : tsec.dot11AuthAlgrthm.toNat = 1 := h.sharedKey
    unfold mode
    rw [if_neg (by rw [h1]; omega), h1]
  split
  · rename_i hbad
    have h0 : algorithm = 0 := by omega
    refine iff_of_false (fun hs => ?_) fun hc => hc.1 (by rw [← halg, h0])
    unfold authFail at hs
    have hpend := ((live_issueAuth t xmit _ _ _).mp hs).2
    rw [h.pending] at hpend
    exact absurd hpend (by decide)
  rename_i hok
  have h0 : algorithm ≠ 0 := fun h0 => hok (Or.inr ⟨h0, hmode1⟩)
  rw [hsa, if_neg (by rw [h.access]; simp)]
  have hstation : t.authStation c.macAddr = (some k, t.reauth k) := by
    unfold authStation
    rw [h.lookup]
  rw [hstation]
  dsimp only
  have hsame := t.sameAuth_reauth k
  have hlive : (t.reauth k).Live k := by
    rw [Live, hsame.base]
    exact live_of_get h.lookup
  rw [hmode1, succeeded_authExchange xmit hlive (by rw [hsame.authSeq, h.authSeq]) h0
    (by rw [hsame.chgTxt, h.challenge]; exact hg.challenge), ← halg, ← hn]
  exact ⟨fun h3 => ⟨h0, h3⟩, fun h3 => h3.2⟩

/-! ## Both halves -/

/-- A run is sound if every frame with the sequence number 3 is as it should be where `OnAuth` does
not look and every answer can be sent, and the frame 3 of a client with the same key and the
challenge is accepted exactly if its IV reads as an algorithm and a sequence number of 3. -/
theorem sharedKey_exact (s : Ap ι) (hs : AuthStart s) :
    (∀ es : List (Bool × RecvFrame), (∀ e ∈ es, e.1 = true ∧
      (rxSeq (decrypted s.base.securitypriv e.2) = 3 → Unchecked s.base.securitypriv e.2)) → Sound s es) ∧
    ∀ (t : Ap ι) (c : Client) (csec : SecurityPriv) (bssid : MacAddr) (seq : ℕ) (k : StaId) (xmit : Bool)
      (f : RecvFrame), Waits t c k → c.sendsChallenge = true →
      t.base.securitypriv.dot11DefKey (ivKeyIndex c) = csec.dot11DefKey csec.dot11PrivacyKeyIndex →
      t.base.securitypriv.dot11DefKeylen (ivKeyIndex c) = csec.dot11DefKeylen csec.dot11PrivacyKeyIndex →
      f.len = (frame3Bytes c csec bssid seq).length → f.mem.Holds f.rxData (frame3Bytes c csec bssid seq) →
      ((t.airAuth (xmit, f)).Succeeded k ↔ ivWord c % 2 ^ 16 ≠ 0 ∧ ivWord c / 2 ^ 16 % 2 ^ 16 = 3) := by
  refine ⟨fun es hes => sound_authRun hs hes, ?_⟩
  intro t c csec bssid seq k xmit f hwaits hsends hkey hkeylen hlen hmem
  exact accepted_frame3_iff hwaits xmit (readsIv_decrypted hsends hlen hmem hkey hkeylen)

end Ap

/-! ## A driver with shared-key authentication -/

/-- The access point with shared-key authentication and a WEP key. -/
def sampleSharedAp : Ap RecvId :=
  { sampleAp with
    base :=
      { sampleAp.base with
        securitypriv :=
          { sampleAp.base.securitypriv with
            dot11AuthAlgrthm := .shared, dot11PrivacyAlgrthm := .wep104
            dot11DefKeylen := fun _ => 13 } } }

theorem authStart_sampleSharedAp : Ap.AuthStart sampleSharedAp := by
  have hdead : ∀ i, ∀ k ∈ sampleSharedAp.base.staHash i, k = 0 := by decide
  refine ⟨⟨1, by decide, by decide, by decide, ?_⟩, fun k _ => rfl, rfl⟩
  rintro j k ⟨i, hj⟩ ⟨i', hk⟩ - -
  rw [hdead i j hj, hdead i' k hk]

/-- Frame 1 of a shared-key authentication. -/
def sampleFrame1 : RecvFrame :=
  Adapter.sampleFrame ([0xb0, 0, 0, 0] ++ Adapter.sampleMac.toList ++ Adapter.sampleTa.toList ++
    Adapter.sampleMac.toList ++ [0, 0, 1, 0, 1, 0, 0, 0])

/-- A frame 3 that was never encrypted : algorithm 1, sequence number 3 and, where `OnAuth` looks
for it, a challenge of zero bytes. -/
def sampleForged : RecvFrame :=
  { Adapter.sampleFrame ([0xb0, 0, 0, 0] ++ Adapter.sampleMac.toList ++ Adapter.sampleTa.toList ++
      Adapter.sampleMac.toList ++ [0, 0, 1, 0, 3, 0, 0, 0, 0, 0, 0, 0, 16, 128]) with
    len := 164
    rxTail := 164 }

/-- A client with that key. -/
def sampleSharedClient (iv : ℕ) : Client where
  macAddr := Adapter.sampleTa
  htOption := false
  rfType1R := true
  state := wifiFwAuthState
  reauthCount := 0
  reassocCount := 0
  authSeq := 3
  authAlgo := .shared
  keyIndex := 0
  iv := iv
  tail := fun _ => 0
  mgtAvail := fun _ => true
  log := []

/-- Its frame 3. -/
def sampleFrame3 (iv : ℕ) : RecvFrame :=
  let bytes := Ap.frame3Bytes (sampleSharedClient iv) sampleSharedAp.base.securitypriv Adapter.sampleMac 0
  { initRecvframe with
    pkt := true
    len := bytes.length
    rxTail := bytes.length
    rxEnd := 2000
    mem := Mem.write (fun _ => 0) 0 bytes }

theorem holds_sampleFrame3 (iv : ℕ) : (sampleFrame3 iv).mem.Holds (sampleFrame3 iv).rxData
    (Ap.frame3Bytes (sampleSharedClient iv) sampleSharedAp.base.securitypriv Adapter.sampleMac 0) :=
  Mem.read_write_self ..

/-- After frame 1 the access point waits for frame 3 of the client. -/
theorem waits_sampleFrame1 (iv : ℕ) :
    Ap.Waits (sampleSharedAp.authRun [(true, sampleFrame1)]) (sampleSharedClient iv) 1 := by
  refine ⟨?_, ?_, ?_, ?_, ?_, ?_, ?_⟩
  · decide +kernel
  · show AuthAlgrthm.toNat _ = 1
    decide +kernel
  · show Ap.rtwAccessCtrl _ Adapter.sampleTa = true
    decide +kernel
  · show Adapter.rtwGetStainfo _ Adapter.sampleTa = some 1
    decide +kernel
  · decide +kernel
  · show _ = Mem.read (fun _ => 0) 0 chgTxtLen
    decide +kernel
  · decide +kernel

theorem sharedKey_exact_sampleFrame3 :
    Ap.Sound sampleSharedAp [(true, sampleFrame1), (true, sampleFrame3 0x00030001)] ∧
    ((sampleSharedAp.authRun [(true, sampleFrame1)]).airAuth (true, sampleFrame3 0x00030001)).Succeeded 1 := by
  obtain ⟨hsound, haccepted⟩ := Ap.sharedKey_exact sampleSharedAp authStart_sampleSharedAp
  constructor
  · refine hsound _ ?_
    simp only [List.forall_mem_cons, List.not_mem_nil, false_implies, implies_true, and_true,
      true_and]
    refine ⟨fun hseq => absurd hseq (by decide), fun _ => ?_⟩
    exact (Ap.readsIv_decrypted rfl rfl (holds_sampleFrame3 _) rfl rfl).unchecked (by decide +kernel)
  · refine (haccepted _ (sampleSharedClient 0x00030001) sampleSharedAp.base.securitypriv
      Adapter.sampleMac 0 1 true _ (waits_sampleFrame1 _) rfl rfl rfl rfl (holds_sampleFrame3 _)).mpr ?_
    decide

/-- The forged frame is accepted, and the frame 3 of a client that starts with the IV 0 is
refused. -/
theorem not_sound_sampleForged : ¬ Ap.Sound sampleSharedAp [(true, sampleFrame1), (true, sampleForged)] ∧
    ¬ ((sampleSharedAp.authRun [(true, sampleFrame1)]).airAuth (true, sampleFrame3 0)).Succeeded 1 := by
  refine ⟨fun h => ?_, fun h => ?_⟩
  · have hnot : ¬ (sampleSharedAp.authRun [(true, sampleFrame1)]).Succeeded 1 := by
      rintro ⟨-, hbit⟩
      rw [(waits_sampleFrame1 0).pending] at hbit
      exact absurd hbit (by decide)
    have hyes : (sampleSharedAp.authRun
      [(true, sampleFrame1), (true, sampleForged)]).Succeeded 1 := by
      refine ⟨⟨wifiMacHash Adapter.sampleTa, ?_⟩, ?_⟩
      · decide +kernel
      · decide +kernel
    obtain ⟨c, body, hgen, -⟩ := h [(true, sampleFrame1)] (true, sampleForged) [] rfl 1 hyes hnot
    exact absurd hgen.privacy (by decide)
  · have hiv := (Ap.accepted_frame3_iff (waits_sampleFrame1 0) true
      (Ap.readsIv_decrypted rfl rfl (holds_sampleFrame3 0) rfl rfl)).mp h
    exact absurd hiv (by decide)

end Rtl8188eu
