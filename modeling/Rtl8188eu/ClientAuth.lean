import Rtl8188eu.ClientJoin

/-!
# The order of authentication frames

Which frames must have been exchanged before `OnAuthClient` calls `start_clnt_assoc`. In a
shared-key authentication, since the last frame 1 was sent, a frame 2 with status 0 came
in, its challenge text went out in frame 3, and then a frame 4 with status 0 came in. In an
open one, a frame 2 with status 0 came in that answers the last frame 1 (`AuthOrdered`).

`OnAuthClient` compares the sequence number of the frame with the current algorithm and
nothing else. Frame 4 is accepted without frame 2, and frame 2 is accepted after the
request was refused. In runs without such frames the order is kept (`authOrdered_run`).
-/

namespace Rtl8188eu

open Runs

namespace Client

/-! ## Histories -/

/-- In the log `l`, the last frame 1 that was sent has the body `b`, and `m` was logged
since. -/
def SinceRequest (l m : List ClientLog) (b : AuthBody) : Prop :=
  ∃ pre, l = m ++ .auth b :: pre ∧ b.seq = 1 ∧ ∀ b', .auth b' ∈ m → b'.seq ≠ 1

/-- An authentication frame with a status other than 0 came in. -/
def Refused (m : List ClientLog) : Prop := ∃ seq status text, .rxAuth seq status text ∈ m ∧ status ≠ 0

/-- Frame 3 with the body `b` sends the challenge `text` back, as far as `chg_txt` holds
it. -/
def Echoes (b : AuthBody) (text : List UInt8) : Prop :=
  b.seq = 3 ∧ ∃ c, b.challenge = some c ∧ c.take text.length = text.take chgTxtLen

/-- In `m`, a frame 2 with status 0 came in and its challenge text went out in frame 3. -/
def Challenged (m : List ClientLog) : Prop :=
  ∃ m₂ m₁ b text, m = m₂ ++ .auth b :: .rxAuth 2 0 (some text) :: m₁ ∧ Echoes b text

/-- The history that allows the association after a shared-key authentication. -/
def SharedDone (l : List ClientLog) : Prop :=
  ∃ m b text, SinceRequest l (.rxAuth 4 0 text :: m) b ∧ Challenged m

/-- The history that allows the association after an open authentication : the frame
answers the last request, which asked for it and was not refused. -/
def OpenDone (l : List ClientLog) : Prop :=
  ∃ m b text, SinceRequest l (.rxAuth 2 0 text :: m) b ∧ b.algorithm = 0 ∧ ¬ Refused m

/-- `start_clnt_assoc` was called only after the frames its algorithm asks for. -/
def AuthOrdered (l : List ClientLog) : Prop :=
  ∀ newer algo older, l = newer ++ .startAssoc algo :: older →
    if algo = .shared then SharedDone older else OpenDone older

theorem AuthOrdered.cons {l : List ClientLog} (h : AuthOrdered l) {e : ClientLog}
    (he : ∀ algo, e = .startAssoc algo → if algo = .shared then SharedDone l else OpenDone l) :
    AuthOrdered (e :: l) := by
  intro newer algo older heq
  rcases newer with _ | ⟨f, newer⟩
  · obtain ⟨rfl, rfl⟩ := List.cons.inj heq
    exact he algo rfl
  · obtain ⟨rfl, hl⟩ := List.cons.inj heq
    exact h newer algo older hl

/-- An entry that is not a call of `start_clnt_assoc` keeps the order. -/
theorem AuthOrdered.cons_other {l : List ClientLog} (h : AuthOrdered l) {e : ClientLog}
    (he : ∀ algo, e ≠ .startAssoc algo) : AuthOrdered (e :: l) :=
  h.cons fun algo heq => absurd heq (he algo)

theorem SinceRequest.cons {l m : List ClientLog} {b : AuthBody} (h : SinceRequest l m b)
    {e : ClientLog} (he : ∀ b', e = .auth b' → b'.seq ≠ 1) : SinceRequest (e :: l) (e :: m) b := by
  obtain ⟨pre, rfl, hb, hm⟩ := h
  refine ⟨pre, rfl, hb, fun b' hb' => ?_⟩
  rcases List.mem_cons.mp hb' with heq | hmem
  · exact he b' heq.symm
  · exact hm b' hmem

theorem SinceRequest.new {l : List ClientLog} {b : AuthBody} (h : b.seq = 1) :
    SinceRequest (.auth b :: l) [] b :=
  ⟨l, rfl, h, fun _ hb => nomatch hb⟩

theorem Challenged.cons {m : List ClientLog} (h : Challenged m) (e : ClientLog) :
    Challenged (e :: m) := by
  obtain ⟨m₂, m₁, b, text, rfl, hb⟩ := h
  exact ⟨e :: m₂, m₁, b, text, rfl, hb⟩

/-! ## The invariant -/

/-- The number `issue_auth` sends for an algorithm. -/
def algorithmNumber (algo : AuthAlgrthm) : ℕ := if algo = .shared then 1 else 0

/-- A client that authenticates has sent a frame 1, for the current algorithm unless it was
refused since, and `auth_seq` is 3 only after the challenge was sent back. -/
structure Authenticating (c : Client) (m : List ClientLog) (b : AuthBody) : Prop where
  since : SinceRequest c.log m b
  algorithm : ¬ Refused m → b.algorithm = algorithmNumber c.authAlgo
  challenged : c.authSeq = 3 → Challenged m

/-- An entry about something else. -/
theorem Authenticating.cons {c c' : Client} {m : List ClientLog} {b : AuthBody}
    (h : Authenticating c m b) (e : ClientLog) (he : ∀ b', e = .auth b' → b'.seq ≠ 1)
    (hlog : c'.log = e :: c.log) (halgo : Refused (e :: m) ∨ c'.authAlgo = c.authAlgo)
    (hseq : c'.authSeq = c.authSeq) : Authenticating c' (e :: m) b := by
  refine ⟨?_, fun hre => ?_, fun h3 => ?_⟩
  · rw [hlog]
    exact h.since.cons he
  · rw [halgo.resolve_left hre]
    refine h.algorithm fun ⟨seq, status, text, hmem, hne⟩ => hre ?_
    exact ⟨seq, status, text, List.mem_cons_of_mem _ hmem, hne⟩
  · rw [hseq] at h3
    exact (h.challenged h3).cons e

/-- The association was started in order so far, and a client that authenticates is in one
of the states of an exchange. Buffers for management frames are always there. -/
structure AuthInv (c : Client) : Prop where
  ordered : AuthOrdered c.log
  avail : ∀ n, c.mgtAvail n = true
  authenticating : hasBits c.state wifiFwAuthState → ∃ m b, Authenticating c m b

/-- A client that does not authenticate any more. -/
theorem AuthInv.leave {c c' : Client} (h : AuthInv c) (e : ClientLog)
    (he : ∀ algo, e ≠ .startAssoc algo) (hlog : c'.log = e :: c.log)
    (havail : c'.mgtAvail = c.mgtAvail) (hst : c'.state = 0) : AuthInv c' := by
  refine ⟨?_, ?_, fun hb => ?_⟩
  · rw [hlog]
    exact h.ordered.cons_other he
  · rw [havail]
    exact h.avail
  · rw [hst] at hb
    exact absurd hb (by decide)

/-! ## The functions -/

/-- The frame 1 a client sends. -/
theorem authInv_issueAuth_request {c : Client} (hord : AuthOrdered c.log)
    (havail : ∀ n, c.mgtAvail n = true) (hseq : c.authSeq = 1) : AuthInv (c.issueAuth 0) := by
  rw [issueAuth_eq, if_pos (havail 0)]
  refine ⟨hord.cons_other (fun _ h => nomatch h), fun n => havail (n + 1), fun _ => ?_⟩
  have hb : (c.authBody 0).seq = 1 := by simp [authBody, hseq]
  refine ⟨[], c.authBody 0, .new hb, fun _ => rfl, fun h3 => ?_⟩
  have h3' : c.authSeq = 3 := h3
  omega

theorem authInv_startClntAuth {c : Client} (h : AuthInv c) : AuthInv c.startClntAuth := by
  unfold startClntAuth
  refine authInv_issueAuth_request ?_ ?_ ?_
  · rw [issueDeauth_eq]
    split_ifs
    · exact h.ordered.cons_other fun _ h => nomatch h
    · exact h.ordered
  · rw [issueDeauth_eq]
    exact fun n => h.avail (n + 1)
  · rw [issueDeauth_eq]

theorem authInv_receiveDisconnect {c : Client} (L : InfoLayout) (h : AuthInv c) (mac : MacAddr)
    (reason : ℕ) : AuthInv (c.receiveDisconnect L mac reason) := by
  unfold receiveDisconnect
  split_ifs
  · exact h
  · exact h.leave (.delSta mac reason) (fun _ h => nomatch h) rfl rfl rfl
  · exact h.leave (.joinRes (-2)) (fun _ h => nomatch h) rfl rfl rfl
  · exact h
  · exact h

theorem authInv_issueAssocreq {c : Client} (h : AuthInv c)
    (hst : hasBits c.state wifiFwAuthState = false) : AuthInv c.issueAssocreq := by
  rw [issueAssocreq_eq]
  refine ⟨?_, fun n => h.avail (n + 1), fun hb => absurd hb (by rw [hst]; decide)⟩
  split_ifs
  · exact h.ordered.cons_other fun _ h => nomatch h
  · exact h.ordered

theorem authInv_linkTimerHdl {c : Client} (h : AuthInv c) : AuthInv c.linkTimerHdl := by
  unfold linkTimerHdl
  dsimp only
  split_ifs with h1 h2 h3 h4 h5
  · exact h.leave (.joinRes (-3)) (fun _ h => nomatch h) rfl rfl rfl
  · exact h.leave (.joinRes (-1)) (fun _ h => nomatch h) rfl rfl rfl
  · exact authInv_issueAuth_request h.ordered h.avail rfl
  · exact h.leave (.joinRes (-2)) (fun _ h => nomatch h) rfl rfl rfl
  · refine authInv_issueAssocreq ⟨h.ordered, h.avail, ?_⟩ (by simpa using h2)
    exact fun hb => absurd hb h2
  · exact h

theorem authInv_onBeacon {c : Client} (L : InfoLayout) (h : AuthInv c) (rf : RecvFrame)
    (scanning apChanged : Bool) : AuthInv (c.onBeacon L rf scanning apChanged) := by
  unfold onBeacon
  split_ifs
  · exact h
  · exact authInv_startClntAuth h
  · exact authInv_receiveDisconnect L h _ 0
  · exact h
  · exact h
  · exact h

theorem authInv_onDeAuth {c : Client} (L : InfoLayout) (h : AuthInv c) (rf : RecvFrame) :
    AuthInv (c.onDeAuth L rf) := by
  unfold onDeAuth
  dsimp only
  split_ifs
  · exact h
  · exact h
  · exact authInv_receiveDisconnect L h _ _

theorem authInv_onDisassoc {c : Client} (L : InfoLayout) (h : AuthInv c) (rf : RecvFrame) :
    AuthInv (c.onDisassoc L rf) := by
  unfold onDisassoc
  dsimp only
  split_ifs
  · exact h
  · exact authInv_receiveDisconnect L h _ _

theorem authInv_onAssocRsp {c : Client} (L : InfoLayout) (h : AuthInv c) (rf : RecvFrame) :
    AuthInv (c.onAssocRsp L rf) := by
  unfold onAssocRsp
  split_ifs with hacc
  swap
  · exact h
  unfold onAssocRspRes
  split_ifs with hstatus
  · exact h.leave (.joinRes (-4)) (fun _ h => nomatch h) rfl rfl rfl
  · dsimp only
    obtain ⟨tail, htail⟩ := foldl_assocRspIe_eq L rf (assocRspIes rf)
      { c with tail := c.tail.write chgTxtLen (le16Bytes (assocRspAid rf)) }
    rw [htail]
    refine ⟨h.ordered.cons_other (fun _ h => nomatch h), h.avail, fun hb => ?_⟩
    -- the bits that are changed are not the one about authentication
    have hb' : hasBits c.state wifiFwAuthState := by
      rw [← hasBits_update c.state wifiFwAssocState wifiFwAssocSuccessBits wifiFwAuthState
        (by decide) (by decide)]
      exact hb
    obtain ⟨m, b, hm⟩ := h.authenticating hb'
    exact ⟨.joinRes (assocRspAid rf) :: m, b,
      hm.cons _ (fun _ h => nomatch h) rfl (Or.inr rfl) rfl⟩

/-! ## Received authentication frames -/

/-- The frames `OnAuthClient` accepts out of order : a frame 4 in a shared-key
authentication whose challenge was not sent back, and a frame 2 in an open one whose
request was refused. -/
def OutOfOrder (c : Client) : ClientEvent → Prop
  | .auth rf =>
    c.macAddr = getDa rf.mem rf.rxData ∧ hasBits c.state wifiFwAuthState ∧
      authFrameStatus rf = 0 ∧
      ((authFrameSeq rf = 4 ∧ c.authAlgo = .shared ∧ c.authSeq ≠ 3) ∨
        (authFrameSeq rf = 2 ∧ c.authAlgo ≠ .shared ∧
          ∃ m b, SinceRequest c.log m b ∧ Refused m))
  | _ => False

/-- `start_clnt_assoc` after the right frames. -/
theorem authInv_startClntAssoc {c : Client} (h : AuthInv c)
    (hdone : if c.authAlgo = .shared then SharedDone c.log else OpenDone c.log) :
    AuthInv c.startClntAssoc := by
  unfold startClntAssoc
  have hclr : hasBits ((c.state &&& ~~~(wifiFwAuthNull ||| wifiFwAuthState)) |||
      (wifiFwAuthSuccess ||| wifiFwAssocState)) wifiFwAuthState = false :=
    hasBits_cleared _ _ _ _ (by decide) (by decide)
  refine authInv_issueAssocreq ⟨?_, h.avail, fun hb => ?_⟩ hclr
  · refine h.ordered.cons fun algo heq => ?_
    cases heq
    exact hdone
  · exact absurd (hclr.symm.trans hb) Bool.false_ne_true

/-- What frame 3 sends is what frame 2 brought. -/
theorem take_chgTxt_write (tail : Mem) (text : List UInt8) :
    ((tail.write 0 text).read 0 chgTxtLen).take text.length = text.take chgTxtLen := by
  refine List.ext_getElem (by simp [Nat.min_comm]) fun i hi hi' => ?_
  have hlt : i < text.length := by
    simp only [List.length_take] at hi
    omega
  rw [List.getElem_take, List.getElem_take, Mem.getElem_read]
  have hb : (0 : ℤ) ≤ 0 + (i : ℤ) ∧ 0 + (i : ℤ) < 0 + (text.length : ℤ) := by omega
  simp only [Mem.write, hb, and_self, if_true]
  simp [List.getD_eq_getElem?_getD, hlt]

/-- Frame 2 of a shared-key authentication is answered with its challenge text. -/
theorem authInv_challenge {c : Client} (h : AuthInv c) {m : List ClientLog} {b : AuthBody}
    {text : List UInt8} (hm : Authenticating c (.rxAuth 2 0 (some text) :: m) b)
    (hst : hasBits c.state wifiFwAuthState) (halgo : c.authAlgo = .shared) :
    AuthInv ({ c with tail := c.tail.write 0 text, authSeq := 3 }.issueAuth 0) := by
  set d : Client := { c with tail := c.tail.write 0 text, authSeq := 3 } with hd
  have hsends : d.sendsChallenge = true := by
    simp only [sendsChallenge, hd, halgo]
    simpa using hst
  have hecho : Echoes (d.authBody 0) text := by
    refine ⟨rfl, d.chgTxt, ?_, take_chgTxt_write c.tail text⟩
    simp only [authBody, hsends, if_true]
  rw [issueAuth_eq, if_pos (h.avail 0)]
  refine ⟨h.ordered.cons_other (fun _ h => nomatch h), fun n => h.avail (n + 1), fun _ => ?_⟩
  have hne : ∀ b', ClientLog.auth (d.authBody 0) = .auth b' → b'.seq ≠ 1 := by
    intro b' heq
    cases heq
    exact (by decide : 3 % 2 ^ 16 ≠ 1)
  have hcons : Authenticating { c with log := .auth (d.authBody 0) :: c.log } _ b :=
    hm.cons _ hne rfl (Or.inr rfl) rfl
  exact ⟨_, b, hcons.since, hcons.algorithm, fun _ => ⟨[], m, d.authBody 0, text, rfl, hecho⟩⟩

theorem authInv_onAuthClient {c : Client} (h : AuthInv c) (rf : RecvFrame)
    (hord : ¬ c.OutOfOrder (.auth rf)) : AuthInv (c.onAuthClient rf) := by
  unfold onAuthClient
  split_ifs with h1
  · exact h
  simp only [ne_eq, not_not] at h1
  dsimp only
  set e := ClientLog.rxAuth (authFrameSeq rf) (authFrameStatus rf) (challengeText rf) with he
  have hrec : AuthInv (c.record e) := by
    refine ⟨h.ordered.cons_other (fun _ h => nomatch h), h.avail, fun hb => ?_⟩
    obtain ⟨m, b, hm⟩ := h.authenticating hb
    exact ⟨e :: m, b, hm.cons e (fun _ h => nomatch h) rfl (Or.inr rfl) rfl⟩
  by_cases h2 : hasBits c.state wifiFwAuthState
  swap
  · rw [if_pos (by simpa [record] using h2)]
    exact hrec
  rw [if_neg (by simpa [record] using h2)]
  obtain ⟨m, b, hm⟩ := h.authenticating h2
  have hme : Authenticating (c.record e) (e :: m) b :=
    hm.cons e (fun _ h => nomatch h) rfl (Or.inr rfl) rfl
  split_ifs with h3 h4 h5 h6 h7
  · -- the algorithm may change, and the request was refused
    have hre : Refused (e :: m) := ⟨_, _, _, List.mem_cons_self, h3⟩
    unfold authFailed
    split_ifs
    · exact ⟨hrec.ordered, hrec.avail, fun _ => ⟨_, b, hme.since, fun hn => absurd hre hn,
        hme.challenged⟩⟩
    · exact ⟨hrec.ordered, hrec.avail, fun _ => ⟨_, b, hme.since, fun hn => absurd hre hn,
        hme.challenged⟩⟩
    · exact hrec
  · split
    · exact hrec
    · rename_i p len hie
      have htext : challengeText rf = some (rf.mem.read (p + 2) len) := by
        rw [challengeText, hie]
        rfl
      simp only [ne_eq, not_not] at h3
      rw [he, h3, h4, htext] at hme hrec ⊢
      exact authInv_challenge hrec hme h2 h5
  · refine authInv_startClntAssoc hrec ?_
    rw [if_neg h5]
    simp only [ne_eq, not_not] at h3
    have hnr : ¬ Refused m := fun hre =>
      hord ⟨h1, h2, h3, Or.inr ⟨h4, h5, m, b, hm.since, hre⟩⟩
    refine ⟨m, b, challengeText rf, ?_, ?_, hnr⟩
    · rw [← h3, ← h4]
      exact hme.since
    · have halgo : c.authAlgo ≠ .shared := h5
      rw [hm.algorithm hnr, algorithmNumber, if_neg halgo]
  · refine authInv_startClntAssoc hrec ?_
    rw [if_pos h7]
    simp only [ne_eq, not_not] at h3
    have hseq : c.authSeq = 3 := by
      by_contra hne
      exact hord ⟨h1, h2, h3, Or.inl ⟨h6, h7, hne⟩⟩
    refine ⟨m, b, challengeText rf, ?_, hm.challenged hseq⟩
    rw [← h3, ← h6]
    exact hme.since
  · exact hrec
  · exact hrec

/-! ## Runs -/

theorem authInv_step {c : Client} (L : InfoLayout) (h : AuthInv c) (e : ClientEvent)
    (hord : ¬ c.OutOfOrder e) : AuthInv (c.step L e) := by
  cases e with
  | beacon rf scanning apChanged => exact authInv_onBeacon L h rf scanning apChanged
  | auth rf => exact authInv_onAuthClient h rf hord
  | assocRsp rf => exact authInv_onAssocRsp L h rf
  | deauth rf => exact authInv_onDeAuth L h rf
  | disassoc rf => exact authInv_onDisassoc L h rf
  | linkTimer => exact authInv_linkTimerHdl h

/-- In every run from a join on, in which buffers for management frames are there and no
frame 4 comes while `auth_seq` is not 3 in a shared-key authentication, nor a frame 2 after
a refusal in an open one, `start_clnt_assoc` is called only after the frames of its
algorithm. -/
theorem authOrdered_run (L : InfoLayout) (c : Client) (caps : ℕ) (hcaps : caps &&& capESS ≠ 0)
    (havail : ∀ n, c.mgtAvail n = true) (es : List ClientEvent)
    (hes : Along (step L) (fun c e => ¬ c.OutOfOrder e)
      ({ c with log := [] }.startClntJoin caps) es) :
    AuthOrdered (run (step L) ({ c with log := [] }.startClntJoin caps) es).log := by
  have h0 : AuthInv ({ c with log := [] }.startClntJoin caps) := by
    rw [startClntJoin, if_pos hcaps]
    have hnull : hasBits (wifiFwAuthNull ||| wifiFwStationState) wifiFwAuthState = false := by
      decide
    refine ⟨fun newer algo older heq => ?_, havail, fun hb => ?_⟩
    · exact absurd heq (by simp)
    · exact absurd (hnull.symm.trans hb) Bool.false_ne_true
  exact (invariant_along (I := AuthInv) (fun u e hu he => authInv_step L hu e he) es h0 hes).ordered

/-- Frame 2 with a challenge. -/
def sampleChallenge : RecvFrame :=
  { sampleMgntFrame 2 with
    len := 160
    rxTail := 160
    mem := ((sampleMgntFrame 2).mem).write 30 (chlgetxtIe :: 128 :: List.replicate 128 7) }

/-- A beacon starts an authentication. An open one ends with frame 2, and a shared-key one with
frame 4, behind the challenge in frame 2. -/
theorem authOrdered_run_sample :
    AuthOrdered (run (step .lp64) ({ sample with log := [] }.startClntJoin 0x0001)
      [.beacon (sampleMgntFrame 0) false false, .auth (sampleMgntFrame 2)]).log ∧
    AuthOrdered (run (step .lp64)
      ({ { sample with authAlgo := .shared } with log := [] }.startClntJoin 0x0001)
      [.beacon (sampleMgntFrame 0) false false, .auth sampleChallenge,
        .auth (sampleMgntFrame 4)]).log ∧
    ClientLog.startAssoc .shared ∈ (run (step .lp64)
      ({ { sample with authAlgo := .shared } with log := [] }.startClntJoin 0x0001)
      [.beacon (sampleMgntFrame 0) false false, .auth sampleChallenge,
        .auth (sampleMgntFrame 4)]).log := by
  refine ⟨?_, ?_, by decide +kernel⟩
  · refine authOrdered_run .lp64 sample 0x0001 (by decide) (fun _ => rfl) _ ⟨?_, ?_, trivial⟩
    · exact id
    · rintro ⟨-, -, -, ⟨h4, -⟩ | ⟨-, -, m, b, ⟨pre, hlog, -, hm⟩, seq, status, text, hmem, -⟩⟩
      · exact absurd h4 (by decide)
      · have hlog' : m ++ ClientLog.auth b :: pre = [.auth ⟨none, 0, 1, 0, none⟩, .deauth 3] :=
          hlog.symm.trans (by decide +kernel)
        have hmem' := List.mem_append_left (ClientLog.auth b :: pre) hmem
        rw [hlog'] at hmem'
        simp at hmem'
  · refine authOrdered_run .lp64 { sample with authAlgo := .shared } 0x0001 (by decide)
      (fun _ => rfl) _ ⟨id, ?_, ?_, trivial⟩
    · rintro ⟨-, -, -, ⟨h4, -⟩ | ⟨-, hopen, -⟩⟩
      · exact absurd h4 (by decide +kernel)
      · exact hopen (by decide +kernel)
    · rintro ⟨-, -, -, ⟨-, -, hseq⟩ | ⟨h2, -⟩⟩
      · exact hseq (by decide +kernel)
      · exact absurd h2 (by decide +kernel)

/-- A frame 4 right after frame 1 of a shared-key authentication starts the association. -/
theorem not_authOrdered :
    ¬ ∀ (L : InfoLayout) (c : Client) (caps : ℕ) (es : List ClientEvent), caps &&& capESS ≠ 0 →
      (∀ n, c.mgtAvail n = true) →
      AuthOrdered (run (step L) ({ c with log := [] }.startClntJoin caps) es).log := by
  intro h
  have hord := h .lp64 { sample with authAlgo := .shared } 0x0001
    [.beacon (sampleMgntFrame 0) false false, .auth (sampleMgntFrame 4)] (by decide) fun _ => rfl
  have hlog : (run (step .lp64)
    ({ sample with authAlgo := .shared, log := [] }.startClntJoin 0x0001)
      [.beacon (sampleMgntFrame 0) false false, .auth (sampleMgntFrame 4)]).log =
      [.assocReq, .startAssoc .shared, .rxAuth 4 0 none, .auth ⟨none, 1, 1, 0, none⟩,
        .deauth 3] := by
    decide +kernel
  obtain ⟨m, b, text, ⟨pre, hm, -, hone⟩, m₂, m₁, b₃, text', rfl, -, -⟩ :=
    hord [.assocReq] .shared _ hlog
  -- the only authentication frame in the history is the request itself
  obtain ⟨-, hm⟩ := List.cons.inj hm
  rcases m₂ with _ | ⟨e, m₂⟩
  · obtain ⟨heq, -⟩ := List.cons.inj hm
    cases heq
    exact hone ⟨none, 1, 1, 0, none⟩ (by simp) rfl
  · obtain ⟨heq, -⟩ := List.cons.inj hm
    subst heq
    exact hone ⟨none, 1, 1, 0, none⟩ (by simp) rfl

end Client

end Rtl8188eu
