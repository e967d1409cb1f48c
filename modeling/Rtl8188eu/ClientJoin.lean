import Rtl8188eu.ClientMlme
import Rtl8188eu.Runs
import Rtl8188eu.StaMgt

/-!
# Every join ends in one report

From the state `start_clnt_join` leaves for an infrastructure network, `mlmext_info.state`
takes five values only (`JoinPhase`). A join waits for a beacon, authenticates,
associates, and is then linked or has ended. `report_join_res` is called when it leaves
the first three of them, and no step goes back (`JoinInv`). Every request is one of the
retries the counters allow, or the answer to a frame that was received.
-/

namespace Rtl8188eu

open Runs

/-! ## What the log says -/

/-- A call of `report_join_res`. -/
def ClientLog.isJoinRes : ClientLog → Bool
  | .joinRes _ => true
  | _ => false

/-- An authentication frame that was sent. -/
def ClientLog.isAuth : ClientLog → Bool
  | .auth _ => true
  | _ => false

/-- An association request that was sent. -/
def ClientLog.isAssocReq : ClientLog → Bool
  | .assocReq => true
  | _ => false

/-- A beacon was received. -/
def ClientEvent.isBeacon : ClientEvent → Bool
  | .beacon _ _ _ => true
  | _ => false

/-- An authentication frame was received. -/
def ClientEvent.isAuth : ClientEvent → Bool
  | .auth _ => true
  | _ => false

/-- A response was received. -/
def ClientEvent.isResponse : ClientEvent → Bool
  | .auth _ | .assocRsp _ => true
  | _ => false

/-! ## Phases -/

/-- The phases of a join. -/
inductive JoinPhase
  | waitBeacon | authenticating | associating | linked | ended
  deriving DecidableEq

namespace JoinPhase

/-- The value of `mlmext_info.state` in a phase. -/
def bits : JoinPhase → BitVec 32
  | waitBeacon => wifiFwAuthNull ||| wifiFwStationState
  | authenticating => wifiFwAuthState ||| wifiFwStationState
  | associating => wifiFwAuthSuccess ||| wifiFwAssocState ||| wifiFwStationState
  | linked => wifiFwAuthSuccess ||| wifiFwAssocSuccessBits ||| wifiFwStationState
  | ended => wifiFwNullState

/-- The number of reports made when the phase is reached. -/
def reported : JoinPhase → ℕ
  | linked | ended => 1
  | _ => 0

/-- The number of retries of the authentication request made so far, at most. -/
def reauths (c : Client) : JoinPhase → ℕ
  | waitBeacon => 0
  | authenticating => c.reauthCount
  | _ => reauthLimit

/-- The number of retries of the association request made so far, at most. -/
def reassocs (c : Client) : JoinPhase → ℕ
  | waitBeacon | authenticating => 0
  | associating => c.reassocCount
  | _ => reassocLimit

end JoinPhase

namespace Client

/-- `c'` is `c` some log entries later : `j` reports, at most `a` authentication frames and
at most `r` association requests. -/
def Emits (c c' : Client) (j a r : ℕ) : Prop :=
  ∃ new, c'.log = new ++ c.log ∧ new.countP ClientLog.isJoinRes = j ∧
    new.countP ClientLog.isAuth ≤ a ∧ new.countP ClientLog.isAssocReq ≤ r

theorem Emits.refl (c : Client) : Emits c c 0 0 0 := ⟨[], rfl, rfl, le_rfl, le_rfl⟩

theorem Emits.trans {c c' c'' : Client} {j a r j' a' r' : ℕ} (h : Emits c c' j a r)
    (h' : Emits c' c'' j' a' r') : Emits c c'' (j + j') (a + a') (r + r') := by
  obtain ⟨new, hlog, hj, ha, hr⟩ := h
  obtain ⟨new', hlog', hj', ha', hr'⟩ := h'
  refine ⟨new' ++ new, by rw [hlog', hlog, List.append_assoc], ?_, ?_, ?_⟩
  all_goals rw [List.countP_append]; omega

theorem Emits.of_log_eq {c c' c'' : Client} {j a r : ℕ} (h : Emits c c'' j a r)
    (hlog : c'.log = c.log) : Emits c' c'' j a r := by
  unfold Emits
  rw [hlog]
  exact h

theorem emits_of_cons {c c' : Client} (e : ClientLog) (h : c'.log = e :: c.log) :
    Emits c c' (if e.isJoinRes then 1 else 0) (if e.isAuth then 1 else 0)
      (if e.isAssocReq then 1 else 0) := by
  refine ⟨[e], h, ?_, ?_, ?_⟩
  all_goals simp [List.countP_cons]

/-- A log that grew by at most one entry. -/
theorem emits_of_log {c c' : Client} (b : Bool) (e : ClientLog)
    (h : c'.log = if b then e :: c.log else c.log) (he : e.isJoinRes = false) :
    Emits c c' 0 (if e.isAuth then 1 else 0) (if e.isAssocReq then 1 else 0) := by
  cases b
  · exact ⟨[], h, rfl, Nat.zero_le _, Nat.zero_le _⟩
  · refine ⟨[e], h, ?_, ?_, ?_⟩
    all_goals simp [List.countP_cons, he]

/-! ## What each function sends -/

theorem emits_issueAuth (c : Client) (status : ℕ) : Emits c (c.issueAuth status) 0 1 0 := by
  rw [issueAuth_eq]
  exact emits_of_log _ (.auth (c.authBody status)) rfl rfl

theorem emits_issueAssocreq (c : Client) : Emits c c.issueAssocreq 0 0 1 := by
  rw [issueAssocreq_eq]
  exact emits_of_log _ .assocReq rfl rfl

theorem emits_issueDeauth (c : Client) (reason : ℕ) : Emits c (c.issueDeauth reason) 0 0 0 := by
  rw [issueDeauth_eq]
  exact emits_of_log _ (.deauth reason) rfl rfl

/-! ## Steps between phases -/

/-- The client is in the phase `ph`, with its counters within their limits. -/
structure InPhase (ph : JoinPhase) (c : Client) : Prop where
  state : c.state = ph.bits
  reauths : ph.reauths c ≤ reauthLimit
  reassocs : ph.reassocs c ≤ reassocLimit
  fresh : ph = .authenticating → c.reassocCount = 0

/-- One step of a join from the phase `ph` to the phase `ph'`, on an event that counts as
`b` beacons and `r` authentication frames : what is sent is a retry or answers the event. -/
structure Advances (c c' : Client) (ph ph' : JoinPhase) (b r : ℕ) : Prop where
  inPhase : InPhase ph' c'
  emits : ∃ j a s, Emits c c' j a s ∧ ph.reported + j = ph'.reported ∧
    ph.reauths c + a ≤ ph'.reauths c' + (if ph = .waitBeacon then b else 0) + r ∧
    (ph' = .waitBeacon → ph = .waitBeacon ∧ a = 0) ∧ ph.reassocs c + s ≤ ph'.reassocs c' + r

/-- A step within a phase. -/
theorem Advances.stay {c c' : Client} {ph : JoinPhase} {b r a s : ℕ} (h : InPhase ph c)
    (he : Emits c c' 0 a s) (ha : a ≤ r) (hw : ph = .waitBeacon → a = 0) (hs : s ≤ r)
    (hst : c'.state = c.state)
    (h1 : c'.reauthCount = c.reauthCount) (h2 : c'.reassocCount = c.reassocCount) :
    Advances c c' ph ph b r := by
  have hre : ph.reauths c' = ph.reauths c := by cases ph <;> simp [JoinPhase.reauths, h1]
  have hra : ph.reassocs c' = ph.reassocs c := by cases ph <;> simp [JoinPhase.reassocs, h2]
  refine ⟨⟨hst.trans h.state, hre.trans_le h.reauths, hra.trans_le h.reassocs, ?_⟩,
    ⟨0, a, s, he, by omega, by omega, fun h => ⟨h, hw h⟩, by omega⟩⟩
  rw [h2]
  exact h.fresh

/-- A step that does nothing. -/
theorem Advances.refl {c : Client} {ph : JoinPhase} (h : InPhase ph c) (b r : ℕ) :
    Advances c c ph ph b r :=
  .stay h (.refl c) (Nat.zero_le _) (fun _ => rfl) (Nat.zero_le _) rfl rfl rfl

/-- A step that ends the join and adds one entry to the log, its report unless that was
made before. -/
theorem Advances.finish {c c' : Client} {ph : JoinPhase} (h : InPhase ph c)
    (hst : c'.state = 0) (e : ClientLog) (hlog : c'.log = e :: c.log) (ha : e.isAuth = false)
    (hs : e.isAssocReq = false) (hj : ph.reported + (if e.isJoinRes then 1 else 0) = 1)
    (b r : ℕ) : Advances c c' ph .ended b r := by
  have he := emits_of_cons e hlog
  rw [ha, hs] at he
  have hre : JoinPhase.ended.reauths c' = reauthLimit := rfl
  have hra : JoinPhase.ended.reassocs c' = reassocLimit := rfl
  have h1 := h.reauths
  have h2 := h.reassocs
  exact ⟨⟨hst, hre.le, hra.le, fun h => nomatch h⟩,
    ⟨_, 0, 0, he, hj, by omega, (fun h => nomatch h), by omega⟩⟩

/-! ## The functions of a join, phase by phase -/

theorem advances_startClntAuth {c : Client} (h : InPhase .waitBeacon c) (r : ℕ) :
    Advances c c.startClntAuth .waitBeacon .authenticating 1 r := by
  have hst : c.startClntAuth.state = JoinPhase.authenticating.bits := by
    simp only [startClntAuth, issueAuth_eq, issueDeauth_eq, h.state]
    decide
  have h1 : c.startClntAuth.reauthCount = 0 := by
    simp only [startClntAuth, issueAuth_eq, issueDeauth_eq]
  have h2 : c.startClntAuth.reassocCount = 0 := by
    simp only [startClntAuth, issueAuth_eq, issueDeauth_eq]
  have he : Emits c c.startClntAuth 0 1 0 :=
    ((emits_issueDeauth _ _).of_log_eq rfl).trans (emits_issueAuth _ _)
  refine ⟨⟨hst, ?_, Nat.zero_le _, fun _ => h2⟩,
    ⟨0, 1, 0, he, rfl, ?_, (fun h => nomatch h), Nat.zero_le _⟩⟩
  · simp [JoinPhase.reauths, h1]
  · simp only [JoinPhase.reauths, h1, if_true]
    omega

theorem advances_startClntAssoc {c : Client} (h : InPhase .authenticating c) (b : ℕ) :
    Advances c c.startClntAssoc .authenticating .associating b 1 := by
  have hst : c.startClntAssoc.state = JoinPhase.associating.bits := by
    simp only [startClntAssoc, issueAssocreq_eq, record, h.state]
    decide
  have h2 : c.startClntAssoc.reassocCount = 0 := by
    simp only [startClntAssoc, issueAssocreq_eq, record, h.fresh]
  have hrec : Emits c (c.record (.startAssoc c.authAlgo)) 0 0 0 :=
    emits_of_cons (.startAssoc c.authAlgo) rfl
  have hreq : Emits (c.record (.startAssoc c.authAlgo)) c.startClntAssoc 0 0 1 :=
    Emits.of_log_eq (emits_issueAssocreq _) rfl
  have he : Emits c c.startClntAssoc 0 0 1 := hrec.trans hreq
  have h1 := h.reauths
  have hre : JoinPhase.associating.reauths c.startClntAssoc = reauthLimit := rfl
  have hra : JoinPhase.associating.reassocs c.startClntAssoc = 0 := h2
  refine ⟨⟨hst, hre.le, by omega, fun h => by cases h⟩, ⟨0, 0, 1, he, rfl, by omega,
    (fun h => by cases h), ?_⟩⟩
  simp [JoinPhase.reassocs]

theorem advances_receiveDisconnect {c : Client} {ph : JoinPhase} (L : InfoLayout)
    (h : InPhase ph c) (mac : MacAddr) (reason b r : ℕ) :
    ∃ ph', Advances c (c.receiveDisconnect L mac reason) ph ph' b r := by
  unfold receiveDisconnect
  split_ifs with h1 h2 h3 h4
  · exact ⟨ph, .refl h b r⟩
  · -- only a linked client has the bit, and its report was made
    have hph : ph.reported = 1 := by
      rw [h.state] at h3
      cases ph <;> first | rfl | exact absurd h3 (by decide)
    exact ⟨.ended, .finish h rfl (.delSta mac reason) rfl rfl rfl (by rw [hph]; rfl) b r⟩
  · have hph : ph.reported = 0 := by
      rw [h.state] at h3 h4
      cases ph <;> first | rfl | exact absurd h4 (by decide) | exact absurd (by decide) h3
    exact ⟨.ended, .finish h rfl (.joinRes (-2)) rfl rfl rfl (by rw [hph]; rfl) b r⟩
  · exact ⟨ph, .refl h b r⟩
  · exact ⟨ph, .refl h b r⟩

theorem advances_linkTimerHdl {c : Client} {ph : JoinPhase} (h : InPhase ph c) (b r : ℕ) :
    ∃ ph', Advances c c.linkTimerHdl ph ph' b r := by
  cases ph with
  | waitBeacon =>
    have heq : c.linkTimerHdl = { c with state := wifiFwNullState }.reportJoinRes (-3) := by
      rw [linkTimerHdl, h.state, if_pos (by decide)]
    rw [heq]
    exact ⟨.ended, .finish h rfl (.joinRes (-3)) rfl rfl rfl rfl b r⟩
  | authenticating =>
    have hle : c.reauthCount ≤ reauthLimit := h.reauths
    have hu : u32 (c.reauthCount + 1) = c.reauthCount + 1 := by
      simp only [u32, reauthLimit] at hle ⊢
      omega
    rw [linkTimerHdl, h.state, if_neg (by decide), if_pos (by decide)]
    dsimp only
    rw [hu]
    split_ifs with hgt
    · exact ⟨.ended, .finish h rfl (.joinRes (-1)) rfl rfl rfl rfl b r⟩
    · refine ⟨.authenticating, ⟨⟨?_, ?_, Nat.zero_le _, fun _ => ?_⟩,
        ⟨0, 1, 0, ?_, rfl, ?_, (fun h => nomatch h), ?_⟩⟩⟩
      · rw [issueAuth_eq]
      · rw [issueAuth_eq]
        exact not_lt.mp hgt
      · rw [issueAuth_eq]
        exact h.fresh rfl
      · exact Emits.of_log_eq (emits_issueAuth _ _) rfl
      · rw [issueAuth_eq]
        simp only [JoinPhase.reauths]
        omega
      · simp [JoinPhase.reassocs]
  | associating =>
    have hle : c.reassocCount ≤ reassocLimit := h.reassocs
    have hu : u32 (c.reassocCount + 1) = c.reassocCount + 1 := by
      simp only [u32, reassocLimit] at hle ⊢
      omega
    rw [linkTimerHdl, h.state, if_neg (by decide), if_neg (by decide), if_pos (by decide)]
    dsimp only
    rw [hu]
    split_ifs with hgt
    · exact ⟨.ended, .finish h rfl (.joinRes (-2)) rfl rfl rfl rfl b r⟩
    · refine ⟨.associating, ⟨⟨?_, le_rfl, ?_, fun h => nomatch h⟩,
        ⟨0, 0, 1, ?_, rfl, ?_, (fun h => nomatch h), ?_⟩⟩⟩
      · rw [issueAssocreq_eq]
      · rw [issueAssocreq_eq]
        exact not_lt.mp hgt
      · exact Emits.of_log_eq (emits_issueAssocreq _) rfl
      · simp only [JoinPhase.reauths]
        omega
      · rw [issueAssocreq_eq]
        simp only [JoinPhase.reassocs]
        omega
  | linked =>
    rw [linkTimerHdl, h.state, if_neg (by decide), if_neg (by decide), if_neg (by decide)]
    exact ⟨.linked, .refl h b r⟩
  | ended =>
    rw [linkTimerHdl, h.state, if_neg (by decide), if_neg (by decide), if_neg (by decide)]
    exact ⟨.ended, .refl h b r⟩

theorem advances_onBeacon {c : Client} {ph : JoinPhase} (L : InfoLayout) (h : InPhase ph c)
    (rf : RecvFrame) (scanning apChanged : Bool) (r : ℕ) :
    ∃ ph', Advances c (c.onBeacon L rf scanning apChanged) ph ph' 1 r := by
  unfold onBeacon
  split_ifs with h1 h2 h3 h4 h5
  · exact ⟨ph, .refl h 1 r⟩
  · have hph : ph = .waitBeacon := by
      rw [h.state] at h3
      cases ph <;> first | rfl | exact absurd h3 (by decide)
    subst hph
    exact ⟨.authenticating, advances_startClntAuth h r⟩
  · exact advances_receiveDisconnect L h _ 0 1 r
  · exact ⟨ph, .refl h 1 r⟩
  · exact ⟨ph, .refl h 1 r⟩
  · exact ⟨ph, .refl h 1 r⟩

/-- Only a client that authenticates has the bit `WIFI_FW_AUTH_STATE`. -/
theorem InPhase.authenticating_of_hasBits {c : Client} {ph : JoinPhase} (h : InPhase ph c)
    (hb : hasBits c.state wifiFwAuthState) : ph = .authenticating := by
  rw [h.state] at hb
  cases ph <;> first | rfl | exact absurd hb (by decide)

theorem InPhase.record {c : Client} {ph : JoinPhase} (h : InPhase ph c) (e : ClientLog) :
    InPhase ph (c.record e) :=
  ⟨h.state, h.reauths, h.reassocs, h.fresh⟩

/-- A received frame is noted first. -/
theorem Advances.after_record {c c' : Client} {ph ph' : JoinPhase} {b r : ℕ} {e : ClientLog}
    (hj : e.isJoinRes = false) (ha : e.isAuth = false) (hr : e.isAssocReq = false)
    (h : Advances (c.record e) c' ph ph' b r) : Advances c c' ph ph' b r := by
  obtain ⟨hin, j, a, s, he, h1⟩ := h
  have hrec : Emits c (c.record e) _ _ _ := emits_of_cons e rfl
  rw [hj, ha, hr] at hrec
  have htot := hrec.trans he
  simp only [Bool.false_eq_true, if_false, Nat.zero_add] at htot
  exact ⟨hin, j, a, s, htot, h1⟩

theorem advances_onAuthClient {c : Client} {ph : JoinPhase} (h : InPhase ph c) (rf : RecvFrame)
    (b : ℕ) : ∃ ph', Advances c (c.onAuthClient rf) ph ph' b 1 := by
  unfold onAuthClient
  split_ifs with h1
  · exact ⟨ph, .refl h b 1⟩
  dsimp only
  set e := ClientLog.rxAuth (authFrameSeq rf) (authFrameStatus rf) (challengeText rf)
  have hin := h.record e
  suffices hd : ∃ ph', Advances (c.record e) _ ph ph' b 1 from
    hd.imp fun ph' hph' => Advances.after_record (e := e) rfl rfl rfl hph'
  revert hin
  generalize c.record e = d
  intro hin
  split_ifs with h2 h3 h4 h5 h6 h7
  · exact ⟨ph, .refl hin b 1⟩
  · refine ⟨ph, .stay (a := 0) (s := 0) hin ?_ (by omega) (fun _ => rfl) (by omega) ?_ ?_ ?_⟩
    all_goals unfold authFailed; split_ifs
    all_goals first | rfl | exact ⟨[], rfl, rfl, le_rfl, le_rfl⟩
  · split
    · exact ⟨ph, .refl hin b 1⟩
    · obtain rfl := hin.authenticating_of_hasBits (by simpa using h2)
      refine ⟨.authenticating, .stay hin (Emits.of_log_eq (emits_issueAuth _ _) rfl) (by omega)
        (fun h => nomatch h) (by omega) ?_ ?_ ?_⟩
      all_goals rw [issueAuth_eq]
  · obtain rfl := hin.authenticating_of_hasBits (by simpa using h2)
    exact ⟨.associating, advances_startClntAssoc hin b⟩
  · obtain rfl := hin.authenticating_of_hasBits (by simpa using h2)
    exact ⟨.associating, advances_startClntAssoc hin b⟩
  · exact ⟨ph, .refl hin b 1⟩
  · exact ⟨ph, .refl hin b 1⟩

theorem htCapsHandler_eq (L : InfoLayout) (c : Client) (m : Mem) (p : ℤ) :
    ∃ tail, c.htCapsHandler L m p = { c with tail := tail } := by
  unfold htCapsHandler
  split_ifs
  · exact ⟨c.tail, rfl⟩
  · exact ⟨_, rfl⟩

/-- The elements of an association response change the memory behind `chg_txt` only. -/
theorem foldl_assocRspIe_eq (L : InfoLayout) (rf : RecvFrame) :
    ∀ (is : List ℕ) (c : Client), ∃ tail, is.foldl (assocRspIe L rf) c = { c with tail := tail }
  | [], c => ⟨c.tail, rfl⟩
  | i :: is, c => by
    rw [List.foldl_cons]
    obtain ⟨tail, h⟩ : ∃ tail, assocRspIe L rf c i = { c with tail := tail } := by
      unfold assocRspIe
      split_ifs
      · exact htCapsHandler_eq L c _ _
      · exact ⟨c.tail, rfl⟩
    rw [h]
    exact foldl_assocRspIe_eq L rf is _

theorem advances_onAssocRsp {c : Client} {ph : JoinPhase} (L : InfoLayout) (h : InPhase ph c)
    (rf : RecvFrame) (b r : ℕ) : ∃ ph', Advances c (c.onAssocRsp L rf) ph ph' b r := by
  unfold onAssocRsp
  split_ifs with hacc
  swap
  · exact ⟨ph, .refl h b r⟩
  have hph : ph = .associating := by
    simp only [acceptsAssocRsp, Bool.and_eq_true, h.state] at hacc
    obtain ⟨⟨-, h1⟩, h2⟩ := hacc
    cases ph <;> first | rfl | exact absurd h1 (by decide) | exact absurd h2 (by decide)
  subst hph
  unfold onAssocRspRes
  split_ifs with hstatus
  · exact ⟨.ended, .finish h rfl (.joinRes (-4)) rfl rfl rfl rfl b r⟩
  · dsimp only
    obtain ⟨tail, htail⟩ := foldl_assocRspIe_eq L rf (assocRspIes rf)
      { c with tail := c.tail.write chgTxtLen (le16Bytes (assocRspAid rf)) }
    rw [htail]
    have hst : (c.state &&& ~~~wifiFwAssocState) ||| wifiFwAssocSuccessBits =
        JoinPhase.linked.bits := by
      rw [h.state]
      decide
    have hle := h.reassocs
    refine ⟨.linked, ⟨⟨hst, le_rfl, le_rfl, fun h => nomatch h⟩,
      ⟨1, 0, 0, emits_of_cons (.joinRes (assocRspAid rf)) rfl, rfl, ?_, (fun h => nomatch h), ?_⟩⟩⟩
    · simp only [JoinPhase.reauths]
      omega
    · simp only [JoinPhase.reassocs] at hle ⊢
      omega

theorem advances_onDeAuth {c : Client} {ph : JoinPhase} (L : InfoLayout) (h : InPhase ph c)
    (rf : RecvFrame) (b r : ℕ) : ∃ ph', Advances c (c.onDeAuth L rf) ph ph' b r := by
  unfold onDeAuth
  dsimp only
  split_ifs
  · exact ⟨ph, .refl h b r⟩
  · exact ⟨ph, .refl h b r⟩
  · exact advances_receiveDisconnect L h _ _ b r

theorem advances_onDisassoc {c : Client} {ph : JoinPhase} (L : InfoLayout) (h : InPhase ph c)
    (rf : RecvFrame) (b r : ℕ) : ∃ ph', Advances c (c.onDisassoc L rf) ph ph' b r := by
  unfold onDisassoc
  dsimp only
  split_ifs
  · exact ⟨ph, .refl h b r⟩
  · exact advances_receiveDisconnect L h _ _ b r

theorem advances_step {c : Client} {ph : JoinPhase} (L : InfoLayout) (h : InPhase ph c)
    (e : ClientEvent) :
    ∃ ph', Advances c (c.step L e) ph ph' (if e.isBeacon then 1 else 0)
      (if e.isAuth then 1 else 0) := by
  cases e with
  | beacon rf scanning apChanged => exact advances_onBeacon L h rf scanning apChanged 0
  | auth rf => exact advances_onAuthClient h rf 0
  | assocRsp rf => exact advances_onAssocRsp L h rf 0 0
  | deauth rf => exact advances_onDeAuth L h rf 0 0
  | disassoc rf => exact advances_onDisassoc L h rf 0 0
  | linkTimer => exact advances_linkTimerHdl h 0 0

/-! ## Runs -/

/-- After the events `es`, a join whose log started as `old` is in a phase, has reported
its result as often as the phase says, and has sent no more than the retries made and the
frames received. -/
def JoinInv (old : List ClientLog) (es : List ClientEvent) (c : Client) : Prop :=
  ∃ ph new, InPhase ph c ∧ c.log = new ++ old ∧
    new.countP ClientLog.isJoinRes = ph.reported ∧
    new.countP ClientLog.isAuth ≤
      ph.reauths c + min 1 (es.countP ClientEvent.isBeacon) + es.countP ClientEvent.isAuth ∧
    (ph = .waitBeacon → new.countP ClientLog.isAuth = 0) ∧
    new.countP ClientLog.isAssocReq ≤ ph.reassocs c + es.countP ClientEvent.isAuth

theorem joinInv_step (L : InfoLayout) {old : List ClientLog} {es : List ClientEvent} {c : Client}
    (h : JoinInv old es c) (e : ClientEvent) : JoinInv old (es ++ [e]) (c.step L e) := by
  obtain ⟨ph, new, hin, hlog, hj, ha, hw, hs⟩ := h
  obtain ⟨ph', hin', j, a, s, ⟨new', hlog', hj', ha', hs'⟩, h1, h2, hw', h3⟩ :=
    advances_step L hin e
  refine ⟨ph', new' ++ new, hin', by rw [hlog', hlog, List.append_assoc], ?_, ?_, ?_, ?_⟩
  all_goals simp only [List.countP_append, List.countP_singleton]
  · omega
  · by_cases hph : ph = .waitBeacon
    · have h0 := hw hph
      have hb : (if e.isBeacon then 1 else 0) ≤ 1 := by split_ifs <;> omega
      rw [if_pos hph] at h2
      omega
    · rw [if_neg hph] at h2
      omega
  · intro hph'
    obtain ⟨hph, ha0⟩ := hw' hph'
    have h0 := hw hph
    omega
  · omega

theorem joinInv_run (L : InfoLayout) (c : Client) {caps : ℕ} (hcaps : caps &&& capESS ≠ 0)
    (es : List ClientEvent) : JoinInv c.log es (run (step L) (c.startClntJoin caps) es) := by
  refine invariant_run (I := JoinInv c.log) ?_ (fun es e u h => joinInv_step L h e) es
  rw [startClntJoin, if_pos hcaps]
  exact ⟨.waitBeacon, [], ⟨rfl, Nat.zero_le _, Nat.zero_le _, fun h => nomatch h⟩, rfl, rfl,
    Nat.zero_le _, fun _ => rfl, Nat.zero_le _⟩

/-- From the state `start_clnt_join` leaves for an infrastructure network, after any
sequence of frames and timeouts : `report_join_res` was called at most once, after a call
the state is `WIFI_FW_NULL_STATE` or has `WIFI_FW_ASSOC_SUCCESS`, and the authentication
and association requests that were sent are the retries the limits allow and one request
for each frame that was answered, which are the authentication frames received and the one
beacon that starts the authentication. -/
theorem join_reports_once (L : InfoLayout) (c : Client) (caps : ℕ) (hcaps : caps &&& capESS ≠ 0)
    (es : List ClientEvent) :
    ∃ new, (run (step L) (c.startClntJoin caps) es).log = new ++ c.log ∧
      new.countP ClientLog.isJoinRes ≤ 1 ∧
      (0 < new.countP ClientLog.isJoinRes →
        (run (step L) (c.startClntJoin caps) es).state = wifiFwNullState ∨
        hasBits (run (step L) (c.startClntJoin caps) es).state wifiFwAssocSuccessBits) ∧
      new.countP ClientLog.isAuth ≤
        reauthLimit + (min 1 (es.countP ClientEvent.isBeacon) + es.countP ClientEvent.isAuth) ∧
      new.countP ClientLog.isAssocReq ≤ reassocLimit + es.countP ClientEvent.isAuth := by
  obtain ⟨ph, new, hin, hlog, hj, ha, -, hs⟩ := joinInv_run L c hcaps es
  have h1 := hin.reauths
  have h2 := hin.reassocs
  refine ⟨new, hlog, ?_, fun hpos => ?_, by omega, by omega⟩
  · rw [hj]
    cases ph <;> simp [JoinPhase.reported]
  · rw [hj] at hpos
    rw [hin.state]
    cases ph <;> first | exact absurd hpos (by decide) | exact Or.inl rfl | exact Or.inr rfl

/-- A client of a network it is about to join. -/
def sample : Client where
  macAddr := zeroAddr
  htOption := false
  rfType1R := true
  state := 0
  reauthCount := 0
  reassocCount := 0
  authSeq := 0
  authAlgo := .openSystem
  keyIndex := 0
  iv := 0
  tail := fun _ => 0
  mgtAvail := fun _ => true
  log := []

/-- A management frame from address zero to address zero, with the number `seq` where an
authentication frame has its sequence number. -/
def sampleMgntFrame (seq : UInt8) : RecvFrame :=
  { initRecvframe with
    pkt := true
    len := 30
    rxTail := 30
    rxEnd := 2000
    mem := fun a => if a = 26 then seq else 0 }

/-- A beacon, and then a timeout before each of the two responses. -/
def sampleJoin : List ClientEvent :=
  [.beacon (sampleMgntFrame 0) false false, .linkTimer, .auth (sampleMgntFrame 2), .linkTimer,
    .assocRsp (sampleMgntFrame 0)]

theorem join_reports_once_sample :
    ∃ new, (run (step .lp64) (sample.startClntJoin 0x0001) sampleJoin).log = new ++ sample.log ∧
      new.countP ClientLog.isJoinRes = 1 ∧
      hasBits (run (step .lp64) (sample.startClntJoin 0x0001) sampleJoin).state
        wifiFwAssocSuccessBits ∧
      new.countP ClientLog.isAuth ≤ 6 ∧ new.countP ClientLog.isAssocReq ≤ 5 := by
  obtain ⟨new, hlog, -, hstate, ha, hs⟩ :=
    join_reports_once .lp64 sample 0x0001 (by decide) sampleJoin
  have hone : new.countP ClientLog.isJoinRes = 1 := by
    have hnew : new = (run (step .lp64) (sample.startClntJoin 0x0001) sampleJoin).log := by
      rw [hlog]
      exact (List.append_nil new).symm
    rw [hnew]
    decide +kernel
  refine ⟨new, hlog, hone, (hstate (by omega)).resolve_left (by decide +kernel), ha, hs⟩

/-- A beacon and timeouts, without and with a response : the request for the beacon is neither a
retry nor the answer to a response. -/
theorem not_join_requests :
    (∃ es : List ClientEvent, es.countP ClientEvent.isResponse = 0 ∧
      reauthLimit < (run (step .lp64) (sample.startClntJoin 0x0001) es).log.countP ClientLog.isAuth) ∧
    ∃ es : List ClientEvent, es.countP ClientEvent.isResponse = 1 ∧
      reauthLimit + reassocLimit + 1 <
        (run (step .lp64) (sample.startClntJoin 0x0001) es).log.countP fun e =>
          e.isAuth || e.isAssocReq := by
  refine ⟨⟨.beacon (sampleMgntFrame 0) false false :: List.replicate 4 .linkTimer, by decide,
    by decide +kernel⟩, .beacon (sampleMgntFrame 0) false false :: List.replicate 4 .linkTimer ++
      .auth (sampleMgntFrame 2) :: List.replicate 4 .linkTimer, by decide, by decide +kernel⟩

end Client

end Rtl8188eu
