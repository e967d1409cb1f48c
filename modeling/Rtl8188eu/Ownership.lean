import Rtl8188eu.RecvFunc
import Rtl8188eu.Runs
import Mathlib.Data.Set.Insert

/-!
# Who owns a receive frame

Every receive frame is on one list, or is being handled by the receive path, or was lost.
`Owned` says this of a state, with the set of frames that are on no list, and keeps the
books of the pool : the counter `free_recvframe_cnt` and the log of frames taken from the
free queue and returned to it. There is one lemma for each operation on the lists, and from
them one for each function of the receive path, up to `owned_recvFuncFrame`.

Two things can go wrong. A management frame is freed by `recv_func_prehandle` although
`recvframe_chk_defrag` has freed it (`MgntFreesTwice`), and a frame can leave its list with
nobody left to free it (`LosesHead`, `OpLoses`, `ReorderLoses`).
-/

namespace Rtl8188eu

open LinkedLists Runs

/-- A receive frame of the driver (`NR_RECVFRAME` of them). -/
abbrev RecvId := Fin 256

/-! ## The books of the pool -/

/-- The number of times a frame was taken from the free queue. -/
def allocs (log : List (PoolEvent RecvId)) (f : RecvId) : ℕ := log.count (.alloc f)

/-- The number of times a frame was returned to the free queue. -/
def frees (log : List (PoolEvent RecvId)) (f : RecvId) : ℕ := log.count (.free f)

/-- The counter, the free queue and the log of the pool agree : a frame that is not free
was taken once more than it was returned, and no frame was ever returned more often than it
was taken. -/
structure Ledger (cnt : ℕ) (free : List RecvId) (log : List (PoolEvent RecvId)) : Prop where
  cnt_eq : cnt = free.length
  balance : ∀ f, allocs log f = frees log f + if f ∈ free then 0 else 1
  once : ∀ pre, pre <+: log → ∀ f, frees pre f ≤ allocs pre f

theorem length_le_of_nodup {free : List RecvId} (h : free.Nodup) : free.length ≤ 256 := by
  have := h.length_le_card
  simpa using this

/-- One more entry in the log. -/
theorem once_concat {log : List (PoolEvent RecvId)} {e : PoolEvent RecvId}
    (h : ∀ pre, pre <+: log → ∀ f, frees pre f ≤ allocs pre f)
    (he : ∀ f, frees (log ++ [e]) f ≤ allocs (log ++ [e]) f) :
    ∀ pre, pre <+: log ++ [e] → ∀ f, frees pre f ≤ allocs pre f := by
  intro pre hpre
  rcases List.prefix_concat_iff.mp hpre with rfl | hpre
  · simpa using he
  · exact h pre hpre

theorem Ledger.free {cnt : ℕ} {free : List RecvId} {log : List (PoolEvent RecvId)} {f : RecvId}
    (h : Ledger cnt free log) (hnd : free.Nodup) (hf : f ∉ free) :
    Ledger (u32 ((cnt : ℤ) + 1)) (free ++ [f]) (log ++ [.free f]) := by
  have hlen := length_le_of_nodup hnd
  have hbal : ∀ g, allocs (log ++ [.free f]) g
      = frees (log ++ [.free f]) g + if g ∈ free ++ [f] then 0 else 1 := by
    intro g
    have hg := h.balance g
    unfold allocs frees at *
    rcases eq_or_ne g f with rfl | hne
    · simp [hf] at hg ⊢
      omega
    · have hne' : ¬ f = g := fun e => hne e.symm
      simp [hne, hne'] at hg ⊢
      exact hg
  refine ⟨?_, hbal, once_concat h.once fun g => ?_⟩
  · rw [h.cnt_eq, List.length_append, List.length_singleton]
    unfold u32
    omega
  · rw [hbal]
    omega

theorem Ledger.alloc {cnt : ℕ} {free : List RecvId} {log : List (PoolEvent RecvId)} {f : RecvId}
    (h : Ledger cnt (f :: free) log) (hnd : (f :: free).Nodup) :
    Ledger (u32 ((cnt : ℤ) - 1)) free (log ++ [.alloc f]) := by
  have hlen := length_le_of_nodup hnd
  have hf : f ∉ free := (List.nodup_cons.mp hnd).1
  have hbal : ∀ g, allocs (log ++ [.alloc f]) g
      = frees (log ++ [.alloc f]) g + if g ∈ free then 0 else 1 := by
    intro g
    have hg := h.balance g
    unfold allocs frees at *
    rcases eq_or_ne g f with rfl | hne
    · simp [hf] at hg ⊢
      omega
    · have hne' : ¬ f = g := fun e => hne e.symm
      simp [hne, hne'] at hg ⊢
      exact hg
  refine ⟨?_, hbal, once_concat h.once fun g => ?_⟩
  · rw [h.cnt_eq]
    rw [List.length_cons] at hlen ⊢
    unfold u32
    omega
  · rw [hbal]
    omega

namespace Adapter

variable {b : Bool} {L : Set RecvId} {s s' : Adapter RecvId} {f : RecvId}

/-- The frames in `L` are on no list, every other frame is linked once, and if `b` is set
the books of the pool agree. -/
structure Owned (b : Bool) (L : Set RecvId) (s : Adapter RecvId) : Prop where
  lost : ∀ f ∈ L, occ s.queue f = 0
  linked : ∀ f ∉ L, occ s.queue f = 1
  ledger : b = true → Ledger s.freeRecvframeCnt (s.queue .freeRecv) s.poolLog

theorem Owned.occ_le (h : Owned b L s) (f : RecvId) : occ s.queue f ≤ 1 := by
  by_cases hf : f ∈ L
  · rw [h.lost f hf]
    omega
  · rw [h.linked f hf]

theorem Owned.nodup (h : Owned b L s) (q : Queue) : (s.queue q).Nodup :=
  nodup_of_occ_le_one h.occ_le q

theorem Owned.notMem_queue (h : Owned b L s) (hf : f ∈ L) (q : Queue) : f ∉ s.queue q :=
  notMem_of_occ_eq_zero (h.lost f hf) q

theorem Owned.notMem_of_mem (h : Owned b L s) {q : Queue} (hf : f ∈ s.queue q) : f ∉ L :=
  fun hL => h.notMem_queue hL q hf

/-- A frame on another list is not free. -/
theorem Owned.notMem_freeRecv (h : Owned b L s) {q : Queue} (hq : q ≠ .freeRecv)
    (hf : f ∈ s.queue q) : f ∉ s.queue .freeRecv :=
  fun hfree => hq (eq_of_mem_of_mem (h.occ_le f) hf hfree)

/-! ## Operations on the lists -/

/-- What does not touch the lists and the books. -/
structure SameLists (s s' : Adapter RecvId) : Prop where
  queue : s'.queue = s.queue
  cnt : s'.freeRecvframeCnt = s.freeRecvframeCnt
  log : s'.poolLog = s.poolLog

theorem Owned.congr (h : Owned b L s) (hs : SameLists s s') : Owned b L s' := by
  refine ⟨?_, ?_, ?_⟩
  · rw [hs.queue]
    exact h.lost
  · rw [hs.queue]
    exact h.linked
  · rw [hs.queue, hs.cnt, hs.log]
    exact h.ledger

theorem sameLists_updateFrame (s : Adapter RecvId) (f : RecvId) (g : RecvFrame → RecvFrame) :
    SameLists s (s.updateFrame f g) := ⟨rfl, rfl, rfl⟩

theorem sameLists_touched (s : Adapter RecvId) (f : RecvId) (fr : RecvFrame) (hw chk : Bool)
    (message : Mem) : SameLists s (s.touched f fr hw chk message) := ⟨rfl, rfl, rfl⟩

theorem sameLists_setReorderCtrl (s : Adapter RecvId) (c : StaId × Fin 16) (r : RecvReorderCtrl) :
    SameLists s (s.setReorderCtrl c r) := ⟨rfl, rfl, rfl⟩

/-- A frame goes back to the pool. -/
theorem Owned.consumed (h : Owned b L s) (hf : b = true → f ∉ s.queue .freeRecv)
    (fr : RecvFrame) (avail : ℕ → Bool) (hu : List RecvId) (inds : List (Indication RecvId)) :
    Owned b (L \ {f}) (s.consumed f fr avail hu inds) := by
  have hocc : ∀ g, occ (s.consumed f fr avail hu inds).queue g
      = if g = f then 1 else occ s.queue g := by
    intro g
    rw [consumed_queue, occ_addTail, occ_unlink]
    split <;> simp
  refine ⟨?_, ?_, ?_⟩
  · rintro g ⟨hg, hne⟩
    rw [hocc, if_neg (by simpa using hne)]
    exact h.lost g hg
  · intro g hg
    rw [hocc]
    split
    · rfl
    · rename_i hne
      exact h.linked g fun hL => hg ⟨hL, by simpa using hne⟩
  · intro hb
    have hfree : (s.consumed f fr avail hu inds).queue .freeRecv = s.queue .freeRecv ++ [f] := by
      rw [consumed_queue, addTail, Function.update_self, unlink_of_notMem (hf hb)]
    rw [hfree]
    exact (h.ledger hb).free (h.nodup _) (hf hb)

theorem Owned.free (h : Owned b L s) (hf : b = true → f ∉ s.queue .freeRecv) :
    Owned b (L \ {f}) (s.rtwFreeRecvframe f) := by
  rw [rtwFreeRecvframe_eq]
  exact h.consumed hf ..

/-- A frame that is being handled goes back to the pool. -/
theorem Owned.free_lost (h : Owned b L s) (hf : f ∈ L) :
    Owned b (L \ {f}) (s.rtwFreeRecvframe f) :=
  h.free fun _ => h.notMem_queue hf _

/-- A frame is taken off a list other than the free queue. -/
theorem Owned.listDelInit (h : Owned b L s) (hf : f ∉ s.queue .freeRecv) :
    Owned b (insert f L) (s.listDelInit f) := by
  have hocc : ∀ g, occ (s.listDelInit f).queue g = if g = f then 0 else occ s.queue g :=
    occ_unlink s.queue f
  refine ⟨?_, ?_, ?_⟩
  · rintro g hg
    rw [hocc]
    split
    · rfl
    · rename_i hne
      exact h.lost g (hg.resolve_left hne)
  · intro g hg
    rw [hocc, if_neg fun he => hg (Or.inl he)]
    exact h.linked g fun hL => hg (Or.inr hL)
  · intro hb
    have hfree : (s.listDelInit f).queue .freeRecv = s.queue .freeRecv := unlink_of_notMem hf
    rw [hfree]
    exact h.ledger hb

/-- A frame that is being handled is linked into a list other than the free queue. -/
theorem Owned.link (h : Owned b L s) (hf : f ∈ L) {q : Queue} (hq : q ≠ .freeRecv)
    {l : List RecvId} (hl : l.Perm (f :: s.queue q))
    (hqueue : s'.queue = Function.update s.queue q l)
    (hcnt : s'.freeRecvframeCnt = s.freeRecvframeCnt) (hlog : s'.poolLog = s.poolLog) :
    Owned b (L \ {f}) s' := by
  have hocc : ∀ g, occ s'.queue g = occ s.queue g + if g = f then 1 else 0 := by
    intro g
    have h1 := occ_update s.queue q l g
    rw [hl.count_eq, List.count_cons] at h1
    rw [hqueue]
    rcases eq_or_ne g f with rfl | hne
    · simp at h1 ⊢
      omega
    · simp [hne, hne.symm] at h1 ⊢
      omega
  have hfree : s'.queue .freeRecv = s.queue .freeRecv := by
    rw [hqueue, Function.update_of_ne (Ne.symm hq)]
  refine ⟨?_, ?_, ?_⟩
  · rintro g ⟨hg, hne⟩
    rw [hocc, if_neg (by simpa using hne), h.lost g hg]
  · intro g hg
    rw [hocc]
    split
    · rename_i he
      rw [he, h.lost f hf]
    · rename_i hne
      rw [Nat.add_zero]
      exact h.linked g fun hL => hg ⟨hL, by simpa using hne⟩
  · rw [hfree, hcnt, hlog]
    exact h.ledger

theorem Owned.listAddTail (h : Owned b L s) (hf : f ∈ L) {q : Queue} (hq : q ≠ .freeRecv) :
    Owned b (L \ {f}) (s.listAddTail f q) :=
  h.link hf hq (List.perm_append_singleton f (s.queue q)) rfl rfl rfl

/-- `rtw_alloc_recvframe` takes a frame off a list. -/
theorem Owned.alloc (h : Owned b L s) {q : Queue} (ha : s.rtwAllocRecvframe q = some (f, s')) :
    f ∉ L ∧ Owned b (insert f L) s' := by
  unfold rtwAllocRecvframe at ha
  cases hq : s.queue q with
  | nil => simp [hq] at ha
  | cons g rest =>
    rw [hq] at ha
    dsimp only at ha
    have hg : g ∈ s.queue q := by simp [hq]
    have hgL := h.notMem_of_mem hg
    split at ha
    · rename_i hfree
      obtain ⟨rfl, rfl⟩ := Prod.mk.inj (Option.some.inj ha)
      subst hfree
      have hnd := h.nodup .freeRecv
      have hrest : (s.listDelInit g).queue .freeRecv = rest := by
        have hgr : g ∉ rest := (List.nodup_cons.mp (hq ▸ hnd)).1
        unfold Adapter.listDelInit unlink
        dsimp only
        rw [hq, List.filter_cons_of_neg (by simp), List.filter_eq_self]
        intro x hx
        simpa using ne_of_mem_of_not_mem hx hgr
      have hocc : ∀ x, occ (s.listDelInit g).queue x = if x = g then 0 else occ s.queue x :=
        occ_unlink s.queue g
      refine ⟨hgL, ?_, ?_, ?_⟩
      · rintro x hx
        dsimp only
        rw [hocc]
        split
        · rfl
        · rename_i hne
          exact h.lost x (hx.resolve_left hne)
      · intro x hx
        dsimp only
        rw [hocc, if_neg fun he => hx (Or.inl he)]
        exact h.linked x fun hL => hx (Or.inr hL)
      · intro hb
        dsimp only
        rw [hrest]
        exact (hq ▸ h.ledger hb : Ledger _ (g :: rest) _).alloc (hq ▸ hnd)
    · rename_i hfree
      obtain ⟨rfl, rfl⟩ := Prod.mk.inj (Option.some.inj ha)
      exact ⟨hgL, h.listDelInit (h.notMem_freeRecv hfree hg)⟩

/-- The frames of a list other than the free queue go back to the pool. -/
theorem Owned.freeFrames : ∀ {fs : List RecvId} {s : Adapter RecvId}, Owned b L s → fs.Nodup →
    (∀ g ∈ fs, g ∉ L ∧ g ∉ s.queue .freeRecv) → Owned b L (s.freeFrames fs)
  | [], _, h, _, _ => h
  | f :: fs, s, h, hnd, hfs => by
    obtain ⟨hf, hnd⟩ := List.nodup_cons.mp hnd
    obtain ⟨hL, hfree⟩ := hfs f (List.mem_cons_self ..)
    have h' := h.free (f := f) fun _ => hfree
    rw [Set.sdiff_singleton_eq_self hL] at h'
    rw [freeFrames_cons]
    refine h'.freeFrames hnd fun g hg => ?_
    obtain ⟨hgL, hgfree⟩ := hfs g (List.mem_cons_of_mem f hg)
    have hne : g ≠ f := ne_of_mem_of_not_mem hg hf
    refine ⟨hgL, ?_⟩
    rw [rtwFreeRecvframe_eq, consumed_queue, mem_addTail, mem_unlink]
    rintro (⟨hm, -⟩ | ⟨-, he⟩)
    · exact hgfree hm
    · exact hne he

theorem Owned.freeQueue (h : Owned b L s) {q : Queue} (hq : q ≠ .freeRecv) :
    Owned b L (s.rtwFreeRecvframeQueue q) :=
  h.freeFrames (h.nodup q) fun _ hg => ⟨h.notMem_of_mem hg, h.notMem_freeRecv hq hg⟩

theorem Owned.ucSwdecFreeLoop :
    ∀ {n : ℕ} {s : Adapter RecvId}, Owned b L s → Owned b L (ucSwdecFreeLoop n s)
  | 0, _, h => h
  | n + 1, s, h => by
    rw [Adapter.ucSwdecFreeLoop]
    cases ha : s.rtwAllocRecvframe .ucSwdecPending with
    | none => exact h
    | some r =>
      obtain ⟨f, t⟩ := r
      obtain ⟨hf, ht⟩ := h.alloc ha
      have ht' := ht.free_lost (Set.mem_insert f L)
      rw [Set.insert_sdiff_self_of_notMem hf] at ht'
      exact ht'.ucSwdecFreeLoop

/-- Lists are forgotten : the frames on them are lost. -/
theorem Owned.forget (h : Owned b L s) (s' : Adapter RecvId)
    (hle : ∀ g, occ s'.queue g ≤ occ s.queue g)
    (hfree : s'.queue .freeRecv = s.queue .freeRecv)
    (hcnt : s'.freeRecvframeCnt = s.freeRecvframeCnt) (hlog : s'.poolLog = s.poolLog) :
    ∃ L', L ⊆ L' ∧ Owned b L' s' ∧ (s'.queue = s.queue → L' = L) := by
  refine ⟨{g | occ s'.queue g = 0}, ?_, ⟨fun g hg => hg, ?_, ?_⟩, ?_⟩
  · intro g hg
    have h0 := h.lost g hg
    have h1 := hle g
    simp only [Set.mem_ofPred_eq]
    omega
  · intro g hg
    have h1 := (hle g).trans (h.occ_le g)
    simp only [Set.mem_ofPred_eq] at hg
    omega
  · rw [hfree, hcnt, hlog]
    exact h.ledger
  · intro hq
    ext g
    simp only [Set.mem_ofPred_eq, hq]
    constructor
    · intro h0
      by_contra hg
      have h1 := h.linked g hg
      omega
    · exact h.lost g

/-! ## Stations -/

/-- What connection management loses : the frames on the lists of a station that are made
empty list heads. -/
def OpLoses (s : Adapter RecvId) : MlmeOp → Prop
  | .freeStainfo psta => s.queue (.defrag psta) ≠ []
  | .allocStainfo _ => ∃ psta ∈ s.freeStaQueue.head?,
      s.queue (.defrag psta) ≠ [] ∨ ∃ tid, s.queue (.pending psta tid) ≠ []
  | _ => False

theorem rtwFreeRecvframe_listDelInit (s : Adapter RecvId) (f : RecvId) :
    (s.listDelInit f).rtwFreeRecvframe f = s.rtwFreeRecvframe f := by
  have hu : unlink (unlink s.queue f) f = unlink s.queue f := by
    ext1 q
    exact unlink_of_notMem (by simp [mem_unlink])
  rw [rtwFreeRecvframe_eq, rtwFreeRecvframe_eq]
  simp only [consumed, listDelInit, hu]

theorem freePending_eq (s : Adapter RecvId) (psta : StaId) (tid : Fin 16) :
    s.freePending psta tid = s.rtwFreeRecvframeQueue (.pending psta tid) := by
  unfold freePending rtwFreeRecvframeQueue Adapter.freeFrames
  congr 1
  ext1 t
  ext1 f
  exact t.rtwFreeRecvframe_listDelInit f

theorem Owned.freePendings (psta : StaId) : ∀ {tids : List (Fin 16)} {s : Adapter RecvId},
    Owned b L s → Owned b L (tids.foldl (fun s tid => s.freePending psta tid) s)
  | [], _, h => h
  | tid :: tids, s, h => by
    rw [List.foldl_cons, freePending_eq]
    exact (h.freeQueue (by simp)).freePendings psta

theorem owned_rtwFreeStainfo (h : Owned b L s) (psta : StaId) :
    ∃ L', L ⊆ L' ∧ Owned b L' (s.rtwFreeStainfo psta) ∧ (s.queue (.defrag psta) = [] → L' = L) := by
  have hle : ∀ g, occ (clear s.queue (.defrag psta)) g ≤ occ s.queue g := by
    intro g
    rw [occ_clear]
    omega
  obtain ⟨L', hsub, h', heq⟩ := h.forget { s with queue := clear s.queue (.defrag psta) }
    hle (by simp [clear]) rfl rfl
  refine ⟨L', hsub, ?_, fun he => heq ?_⟩
  · have hlast : ∀ t : Adapter RecvId, Owned b L' t →
        Owned b L' { t with freeStaQueue := t.freeStaQueue ++ [psta] } :=
      fun t ht => ht.congr ⟨rfl, rfl, rfl⟩
    refine hlast _ (Owned.freePendings psta ?_)
    exact h'.congr ⟨rfl, rfl, rfl⟩
  · simp [clear, ← he]

theorem occ_initStaQueues_le (s : Adapter RecvId) (psta : StaId) (g : RecvId) :
    occ (s.initStaQueues psta).queue g ≤ occ s.queue g := by
  refine Finset.sum_le_sum fun q _ => ?_
  unfold initStaQueues
  cases q with
  | freeRecv => rfl
  | ucSwdecPending => rfl
  | defrag k =>
    dsimp only
    split
    · exact Nat.zero_le _
    · rfl
  | pending k tid =>
    dsimp only
    split
    · exact Nat.zero_le _
    · rfl

theorem owned_rtwAllocStainfo (h : Owned b L s) (hwaddr : MacAddr) :
    ∃ L', L ⊆ L' ∧ Owned b L' (s.rtwAllocStainfo hwaddr).2 ∧
      (¬ OpLoses s (.allocStainfo hwaddr) → L' = L) := by
  unfold rtwAllocStainfo
  cases hq : s.freeStaQueue with
  | nil => exact ⟨L, subset_rfl, h, fun _ => rfl⟩
  | cons psta rest =>
    obtain ⟨L', hsub, h', heq⟩ := h.forget (s.initStaQueues psta)
      (s.occ_initStaQueues_le psta) rfl rfl rfl
    refine ⟨L', hsub, h'.congr ⟨rfl, rfl, rfl⟩, fun hno => heq ?_⟩
    have hempty : s.queue (.defrag psta) = [] ∧ ∀ tid, s.queue (.pending psta tid) = [] := by
      simpa [OpLoses, hq] using hno
    ext1 q
    unfold initStaQueues
    cases q with
    | freeRecv => rfl
    | ucSwdecPending => rfl
    | defrag k =>
      dsimp only
      split
      · rename_i hk
        rw [hk, hempty.1]
      · rfl
    | pending k tid =>
      dsimp only
      split
      · rename_i hk
        rw [hk, hempty.2]
      · rfl

theorem owned_mlmeOp (h : Owned b L s) (op : MlmeOp) :
    ∃ L', L ⊆ L' ∧ Owned b L' (s.mlmeOp op) ∧ (¬ OpLoses s op → L' = L) := by
  cases op with
  | freeStainfo psta =>
    obtain ⟨L', hsub, h', heq⟩ := owned_rtwFreeStainfo h psta
    exact ⟨L', hsub, h', fun hno => heq (not_not.mp hno)⟩
  | allocStainfo hwaddr => exact owned_rtwAllocStainfo h hwaddr
  | freeUcSwdecPendingQueue => exact ⟨L, subset_rfl, h.ucSwdecFreeLoop, fun _ => rfl⟩
  | stop stopped removed => exact ⟨L, subset_rfl, h.congr ⟨rfl, rfl, rfl⟩, fun _ => rfl⟩
  | configure mlmepriv mlmeext securitypriv sta =>
    exact ⟨L, subset_rfl, h.congr ⟨rfl, rfl, rfl⟩, fun _ => rfl⟩

/-- Several operations, one after the other. -/
theorem owned_mlmeOps : ∀ (ops : List MlmeOp) {L : Set RecvId} {s : Adapter RecvId},
    Owned b L s → ∃ L', L ⊆ L' ∧ Owned b L' (ops.foldl mlmeOp s) ∧
      (Along mlmeOp (fun s op => ¬ OpLoses s op) s ops → L' = L)
  | [], L, s, h => ⟨L, subset_rfl, h, fun _ => rfl⟩
  | op :: ops, L, s, h => by
    obtain ⟨L₁, hsub₁, h₁, heq₁⟩ := owned_mlmeOp h op
    obtain ⟨L₂, hsub₂, h₂, heq₂⟩ := owned_mlmeOps ops h₁
    exact ⟨L₂, hsub₁.trans hsub₂, h₂, fun hno => (heq₂ hno.2).trans (heq₁ hno.1)⟩

/-! ## Fragments -/

/-- The last fragment meets a first fragment with number 0. Then `recvframe_defrag` takes
the first fragment off its queue and leaves it there. -/
def LosesHead (s : Adapter RecvId) (f : RecvId) : Prop :=
  (s.recvframe f).attrib.mfrag = false ∧ (s.recvframe f).attrib.fragNum ≠ 0 ∧
    ∃ psta, s.defragQueue (s.recvframe f) = .sta psta ∧
      ∃ a ∈ (s.queue (.defrag psta)).head?, (s.recvframe a).attrib.fragNum = 0

/-- `recvframe_chk_defrag` frees the frame it was given : the last fragment, a fragment of an
unknown station, or a frame with a wrong MIC. -/
def DefragFrees (s : Adapter RecvId) (f : RecvId) : Prop :=
  if (s.recvframe f).attrib.mfrag then s.defragQueue (s.recvframe f) = .null
  else (s.recvframe f).attrib.fragNum ≠ 0 ∨
    (s.recvframe f).attrib.privacy = true ∧ (s.recvframeChkmic f).1 = false

theorem owned_recvframeDefrag {q : Queue} {r : Option RecvId} (h : Owned b L s)
    (hq : q ≠ .freeRecv) (hf : f ∈ s.queue q) (h0 : (s.recvframe f).attrib.fragNum ≠ 0)
    (he : s.recvframeDefrag q = some (r, s')) :
    r = none ∧ ∃ L', Owned b L' s' ∧
      ((∀ a ∈ (s.queue q).head?, (s.recvframe a).attrib.fragNum ≠ 0) → L' = L) := by
  cases hl : s.queue q with
  | nil => simp [hl] at hf
  | cons a rest =>
    have ha : a ∈ s.queue q := by simp [hl]
    have haL := h.notMem_of_mem ha
    have h₁ := h.listDelInit (h.notMem_freeRecv hq ha)
    rcases recvframeDefrag_eq hl with ⟨-, hd⟩ | ⟨ha0, hu | ⟨c, hc, fr, -, hd⟩⟩
    · obtain ⟨rfl, rfl⟩ := Prod.mk.inj (Option.some.inj (he.symm.trans hd))
      have h₂ := h₁.free_lost (Set.mem_insert a L)
      rw [Set.insert_sdiff_self_of_notMem haL] at h₂
      exact ⟨rfl, L, h₂.freeQueue hq, fun _ => rfl⟩
    · have hfa : f ≠ a := fun e => h0 (e ▸ ha0)
      exact absurd hu (List.ne_nil_of_mem (mem_unlink.mpr ⟨hf, hfa⟩))
    · -- the first fragment `a` stays on no list
      obtain ⟨rfl, rfl⟩ := Prod.mk.inj (Option.some.inj (he.symm.trans hd))
      have hc' : c ∈ (s.listDelInit a).queue q := hc
      have h₂ := h₁.listDelInit (h₁.notMem_freeRecv hq hc')
      have h₃ := (h₂.congr (sameLists_updateFrame _ c fun _ => fr)).free_lost
        (Set.mem_insert c _)
      rw [Set.insert_sdiff_self_of_notMem (h₁.notMem_of_mem hc')] at h₃
      refine ⟨rfl, insert a L, h₃.freeQueue hq, fun hall => ?_⟩
      exact absurd ha0 (hall a (by simp))

/-- A fragment that is not the last one is put on its queue. -/
theorem owned_enqueueFragment {r : Option RecvId} (h : Owned b L s) (hf : f ∈ L)
    (he : s.enqueueFragment f = some (r, s')) :
    r = none ∧ Owned b (L \ {f}) s' ∧
      (s.defragQueue (s.recvframe f) ≠ .null → f ∉ s'.queue .freeRecv) := by
  unfold enqueueFragment at he
  split at he
  · rename_i psta hq
    cases he
    have hmem : ∀ t : Adapter RecvId, Owned b L t →
        Owned b (L \ {f}) (t.listAddTail f (.defrag psta)) ∧
          f ∉ (t.listAddTail f (.defrag psta)).queue .freeRecv := by
      intro t ht
      have ht' := ht.listAddTail hf (q := .defrag psta) (by simp)
      refine ⟨ht', ht'.notMem_freeRecv (q := .defrag psta) (by simp) ?_⟩
      simp [Adapter.listAddTail, mem_addTail]
    split
    · obtain ⟨h₁, h₂⟩ := hmem _ (h.freeQueue (q := .defrag psta) (by simp))
      exact ⟨rfl, h₁, fun _ => h₂⟩
    · obtain ⟨h₁, h₂⟩ := hmem s h
      exact ⟨rfl, h₁, fun _ => h₂⟩
  · rename_i hq
    cases he
    exact ⟨rfl, h.free_lost hf, fun hne => absurd hq hne⟩
  · simp at he

/-- The last fragment and all others of its queue go back to the pool, except a first
fragment with number 0. -/
theorem owned_lastFragment {r : Option RecvId} (h : Owned b L s) (hf : f ∈ L)
    (hm : (s.recvframe f).attrib.mfrag = false) (h0 : (s.recvframe f).attrib.fragNum ≠ 0)
    (he : s.lastFragment f = some (r, s')) :
    r = none ∧ ∃ L', Owned b L' s' ∧ (¬ LosesHead s f → L' = L \ {f}) := by
  unfold lastFragment at he
  split at he
  · rename_i psta hq
    have h₁ := h.listAddTail hf (q := .defrag psta) (by simp)
    have hmem : f ∈ (s.listAddTail f (.defrag psta)).queue (.defrag psta) := by
      simp [Adapter.listAddTail, mem_addTail]
    obtain ⟨hr, L', h₂, heq⟩ := owned_recvframeDefrag h₁ (by simp) hmem h0 he
    refine ⟨hr, L', h₂, fun hno => heq fun a ha ha0 => hno ⟨hm, h0, psta, hq, a, ?_, ha0⟩⟩
    -- the head of the queue was there before, since `f` itself has another number
    cases hl : s.queue (.defrag psta) with
    | nil =>
      have haf : a = f := by simpa [Adapter.listAddTail, addTail, hl] using ha.symm
      exact absurd (haf ▸ ha0) h0
    | cons x rest => simpa [Adapter.listAddTail, addTail, hl] using ha
  · cases he
    exact ⟨rfl, _, h.free_lost hf, fun _ => rfl⟩
  · simp at he

/-- The frame is returned as it is on the lists, or it is taken over or freed. -/
theorem owned_recvframeChkDefrag {r : Option RecvId} (h : Owned b L s) (hf : f ∈ L)
    (he : s.recvframeChkDefrag f = some (r, s')) :
    (r = some f ∧ Owned b L s') ∨
      (r = none ∧ ∃ L', Owned b L' s' ∧ (¬ LosesHead s f → L' = L \ {f}) ∧
        (¬ DefragFrees s f → f ∉ s'.queue .freeRecv)) := by
  unfold recvframeChkDefrag at he
  dsimp only at he
  obtain ⟨⟨r₁, t⟩, h₁, he⟩ := Option.map_eq_some_iff.mp he
  split at h₁
  · rename_i hm
    obtain ⟨rfl, ht, hfree⟩ := owned_enqueueFragment h hf h₁
    cases he
    refine Or.inr ⟨rfl, _, ht, fun _ => rfl, fun hno => hfree fun hnull => hno ?_⟩
    rw [DefragFrees, if_pos hm]
    exact hnull
  · rename_i hm
    split at h₁
    · rename_i h0
      obtain ⟨rfl, L', ht, heq⟩ := owned_lastFragment h hf (by simpa using hm) h0 h₁
      cases he
      refine Or.inr ⟨rfl, L', ht, heq, fun hno => absurd ?_ hno⟩
      rw [DefragFrees, if_neg hm]
      exact Or.inl h0
    · cases h₁
      unfold checkReassembled at he
      dsimp only at he
      split at he
      · rename_i hp
        obtain ⟨fr, chk, -, hchk⟩ := s.recvframeChkmic_eq f
        have ht : Owned b L (s.recvframeChkmic f).2 := by
          rw [hchk]
          exact h.congr (sameLists_touched ..)
        split at he
        · cases he
          exact Or.inl ⟨rfl, ht⟩
        · rename_i hok
          cases he
          refine Or.inr ⟨rfl, _, ht.free_lost hf, fun _ => rfl, fun hno => absurd ?_ hno⟩
          rw [DefragFrees, if_neg hm]
          exact Or.inr ⟨hp, by simpa using hok⟩
      · cases he
        exact Or.inl ⟨rfl, h⟩

/-! ## The reorder buffer -/

/-- The frames that the loop of `recv_indicatepkts_in_order` takes off the pending list. -/
def takenOff (seqNum : RecvId → ℕ) : ℕ → List RecvId → List RecvId
  | _, [] => []
  | indicateSeq, f :: fs =>
    if snLess indicateSeq (seqNum f) then []
    else
      f :: takenOff seqNum
        (if indicateSeq = seqNum f then (indicateSeq + 1) &&& 0xfff else indicateSeq) fs

/-- What the locked part of `recv_indicatepkt_reorder` loses when the driver is stopped : a
frame it rejects, or a plain frame it takes off the pending list. -/
def LockedLoses (s : Adapter RecvId) (c : StaId × Fin 16) (f : RecvId) : Prop :=
  let r := checkIndicateSeq (s.reorderCtrl c) (s.seqNumOf f)
  r.1 = false ∨
    match enqueueWalk s.seqNumOf f (s.pendingOf c) with
    | none => True
    | some l => ∃ g ∈ takenOff s.seqNumOf r.2.indicateSeq l, (s.recvframe g).attrib.amsdu = false

/-- `process_recv_indicatepkts` with the driver stopped loses a frame. -/
def ReorderLoses (s : Adapter RecvId) (f : RecvId) : Prop :=
  let c := (s.recvframe f).preorderCtrl
  let a := (s.recvframe f).attrib
  s.driverUp = false ∧ s.mlmepriv.htOption = true ∧
    (a.amsdu = false ∧ a.qos = false ∨
      (s.reorderCtrl c).enable = true ∧ LockedLoses s c f)

/-- The indication of a frame returns it to the pool, unless the driver is stopped and the
frame is a plain one. -/
theorem indicateFrame_cases (he : s.indicateFrame f = some s') :
    (s.driverUp = false ∧ (s.recvframe f).attrib.amsdu = false ∧ s' = s) ∨
      ∃ fr avail hu inds, s' = s.consumed f fr avail hu inds ∧
        fr.attrib = (s.recvframe f).attrib := by
  unfold indicateFrame at he
  split at he
  · cases he
    obtain ⟨fr, avail, h, hattr⟩ := s.amsduToMsdu_eq f
    exact Or.inr ⟨fr, avail, _, _, h, hattr⟩
  · rename_i ha
    split at he
    · obtain ⟨fr, avail, inds, h, hattr, -⟩ := rtwRecvIndicatepkt_eq he
      exact Or.inr ⟨fr, avail, _, inds, h, hattr⟩
    · rename_i hup
      cases he
      exact Or.inl ⟨by simpa using hup, by simpa using ha, rfl⟩

/-- One round of `recv_indicatepkts_in_order` : what the next round sees. -/
structure RoundEnds (b : Bool) (L : Set RecvId) (s : Adapter RecvId) (c : StaId × Fin 16)
    (f : RecvId) (s' : Adapter RecvId) : Prop where
  up : s'.driverUp = s.driverUp
  attrib : ∀ g, (s'.recvframe g).attrib = (s.recvframe g).attrib
  ctrl : s'.reorderCtrl c = s.reorderCtrl c
  pending : ∀ g ∈ s.pendingOf c, g ≠ f → g ∈ s'.pendingOf c
  owned : ∃ L', Owned b L' s' ∧
    (s.driverUp = true ∨ (s.recvframe f).attrib.amsdu = true → L' = L \ {f})

theorem roundEnds_indicateFrame {c : StaId × Fin 16} (h : Owned b L s) (hf : f ∈ L)
    (he : s.indicateFrame f = some s') : RoundEnds b L s c f s' := by
  rcases indicateFrame_cases he with ⟨hup, ha, rfl⟩ | ⟨fr, avail, hu, inds, rfl, hattr⟩
  · refine ⟨rfl, fun _ => rfl, rfl, fun _ hg _ => hg, L, h, ?_⟩
    simp [hup, ha]
  · refine ⟨driverUp_consumed .., fun g => ?_, reorderCtrl_consumed .., fun g hg hne => ?_,
      _, h.consumed (fun _ => h.notMem_queue hf _) .., fun _ => rfl⟩
    · rw [consumed_recvframe]
      rcases eq_or_ne g f with rfl | hne
      · rw [Function.update_self]
        exact hattr
      · rw [Function.update_of_ne hne]
    · rw [pendingOf_consumed]
      exact List.mem_filter.mpr ⟨hg, by simpa using hne⟩

/-- The loop of `recv_indicatepkts_in_order` loses frames only if the driver is stopped and
it takes a plain frame off. -/
theorem owned_inOrderLoop {c : StaId × Fin 16} :
    ∀ {fs : List RecvId} {L : Set RecvId} {s s' : Adapter RecvId} {more : Bool},
      Owned b L s → fs.Nodup → (∀ g ∈ fs, g ∈ s.pendingOf c) →
      inOrderLoop c fs s = some (more, s') →
      ∃ L', Owned b L' s' ∧ (s.driverUp = true ∨
        (∀ g ∈ takenOff s.seqNumOf (s.reorderCtrl c).indicateSeq fs,
          (s.recvframe g).attrib.amsdu = true) → L' = L)
  | [], L, s, s', more, h, _, _, he => by
    cases he
    exact ⟨L, h, fun _ => rfl⟩
  | f :: fs, L, s, s', more, h, hnd, hmem, he => by
    obtain ⟨hfs, hnd⟩ := List.nodup_cons.mp hnd
    have hf : f ∈ s.queue (.pending c.1 c.2) := hmem f (List.mem_cons_self ..)
    rw [inOrderLoop] at he
    dsimp only at he
    rw [takenOff]
    split at he
    · cases he
      exact ⟨L, h, fun _ => rfl⟩
    · rename_i hless
      rw [if_neg hless]
      set next := if (s.reorderCtrl c).indicateSeq = s.seqNumOf f
        then ((s.reorderCtrl c).indicateSeq + 1) &&& 0xfff
        else (s.reorderCtrl c).indicateSeq with hnext
      -- the frame is taken off, and the window moves on if it waited for this frame
      have hmove : (if (s.reorderCtrl c).indicateSeq = (s.listDelInit f).seqNumOf f
          then (s.listDelInit f).setIndicateSeq c (((s.reorderCtrl c).indicateSeq + 1) &&& 0xfff)
          else s.listDelInit f) = (s.listDelInit f).setIndicateSeq c next := by
        rw [hnext]
        have hseq : (s.listDelInit f).seqNumOf f = s.seqNumOf f := rfl
        rw [hseq]
        split
        · rfl
        · exact (setIndicateSeq_self rfl).symm
      rw [hmove] at he
      obtain ⟨u, hind, hloop⟩ := Option.bind_eq_some_iff.mp he
      have h₁ : Owned b (insert f L) ((s.listDelInit f).setIndicateSeq c next) :=
        (h.listDelInit (h.notMem_freeRecv (by simp) hf)).congr (sameLists_setReorderCtrl ..)
      have hround := roundEnds_indicateFrame (c := c) h₁ (Set.mem_insert f L) hind
      obtain ⟨L₁, h₂, heq₁⟩ := hround.owned
      rw [Set.insert_sdiff_self_of_notMem (h.notMem_of_mem hf)] at heq₁
      have hseq : u.seqNumOf = s.seqNumOf := by
        ext1 g
        exact congrArg RxPktAttrib.seqNum (hround.attrib g)
      have hctrl : (u.reorderCtrl c).indicateSeq = next := by
        rw [hround.ctrl]
        simp [setIndicateSeq]
      have hmem' : ∀ g ∈ fs, g ∈ u.pendingOf c := by
        intro g hg
        have hne : g ≠ f := ne_of_mem_of_not_mem hg hfs
        refine hround.pending g ?_ hne
        exact mem_unlink.mpr ⟨hmem g (List.mem_cons_of_mem f hg), hne⟩
      obtain ⟨L', h₃, heq₂⟩ := owned_inOrderLoop h₂ hnd hmem' hloop
      refine ⟨L', h₃, fun hcond => (heq₂ ?_).trans (heq₁ ?_)⟩
      · rcases hcond with hup | hall
        · exact Or.inl (hround.up.trans hup)
        · refine Or.inr fun g hg => ?_
          rw [hseq, hctrl] at hg
          rw [hround.attrib]
          exact hall g (List.mem_cons_of_mem f hg)
      · exact hcond.imp id fun hall => hall f (List.mem_cons_self ..)

/-- The locked part of `recv_indicatepkt_reorder` takes the frame over, or rejects it. -/
theorem owned_reorderLocked {c : StaId × Fin 16} {st : Status} (h : Owned b L s) (hf : f ∈ L)
    (he : s.reorderLocked c f = some (st, s')) :
    (st ≠ .success ∧ Owned b L s' ∧ s'.driverUp = s.driverUp ∧ LockedLoses s c f) ∨
      (st = .success ∧ ∃ L', Owned b L' s' ∧
        (s.driverUp = true ∨ ¬ LockedLoses s c f → L' = L \ {f})) := by
  set r := checkIndicateSeq (s.reorderCtrl c) (s.seqNumOf f) with hr
  have h₁ : Owned b L (s.setReorderCtrl c r.2) := h.congr (sameLists_setReorderCtrl ..)
  rcases reorderLocked_cases hr.symm he with ⟨hno, rfl, rfl⟩ | ⟨l, more, hl, rfl, hloop⟩
  · refine Or.inl ⟨by simp, h₁, rfl, hno.imp id fun hl => ?_⟩
    simp [hl]
  · have hqueue : ((s.setReorderCtrl c r.2).linkPending c f l).queue
        = Function.update (s.setReorderCtrl c r.2).queue (.pending c.1 c.2) l := by
      have hu : unlink s.queue f = s.queue := unlink_of_occ_eq_zero (h.lost f hf)
      simp only [linkPending, queue_setReorderCtrl, hu]
    have h₂ : Owned b (L \ {f}) ((s.setReorderCtrl c r.2).linkPending c f l) :=
      h₁.link hf (q := .pending c.1 c.2) (by simp) (enqueueWalk_perm hl) hqueue rfl rfl
    have hpend : ((s.setReorderCtrl c r.2).linkPending c f l).pendingOf c = l := by
      rw [pendingOf, hqueue, Function.update_self]
    obtain ⟨L', h₃, heq⟩ := owned_inOrderLoop h₂ (hpend ▸ h₂.nodup _) (fun g hg => by rwa [hpend])
      hloop
    refine Or.inr ⟨rfl, L', h₃, fun hcond => heq (hcond.imp id fun hno g hg => ?_)⟩
    by_contra ham
    refine hno (Or.inr ?_)
    rw [hl]
    have hctrl : (((s.setReorderCtrl c r.2).linkPending c f l).reorderCtrl c).indicateSeq
        = r.2.indicateSeq :=
      congrArg RecvReorderCtrl.indicateSeq (reorderCtrl_setReorderCtrl s c r.2)
    rw [hctrl] at hg
    exact ⟨g, hg, Bool.eq_false_iff.mpr ham⟩

/-- The rewrite of a header leaves what the locked part loses as it is. -/
theorem lockedLoses_updateFrame {c : StaId × Fin 16} {fr : RecvFrame}
    (hsame : (s.recvframe f).SameBut fr) :
    LockedLoses (s.updateFrame f fun _ => fr) c f ↔ LockedLoses s c f := by
  have hat : ∀ g, ((s.updateFrame f fun _ => fr).recvframe g).attrib = (s.recvframe g).attrib := by
    intro g
    rw [recvframe_updateFrame]
    rcases eq_or_ne g f with rfl | hne
    · rw [Function.update_self]
      exact hsame.2.1
    · rw [Function.update_of_ne hne]
  have hseq : (s.updateFrame f fun _ => fr).seqNumOf = s.seqNumOf := by
    ext1 g
    exact congrArg RxPktAttrib.seqNum (hat g)
  have hctrl : (s.updateFrame f fun _ => fr).reorderCtrl c = s.reorderCtrl c := rfl
  have hpend : (s.updateFrame f fun _ => fr).pendingOf c = s.pendingOf c := rfl
  unfold LockedLoses
  simp only [hseq, hctrl, hpend, hat]

/-- `recv_indicatepkt_reorder` takes the frame over, or rejects it. -/
theorem owned_recvIndicatepktReorder {st : Status} (h : Owned b L s) (hf : f ∈ L)
    (hht : s.mlmepriv.htOption = true) (he : s.recvIndicatepktReorder f = some (st, s')) :
    (st ≠ .success ∧ Owned b L s' ∧ (s'.driverUp = false → ReorderLoses s f)) ∨
      (st = .success ∧ ∃ L', Owned b L' s' ∧ (¬ ReorderLoses s f → L' = L \ {f})) := by
  unfold recvIndicatepktReorder at he
  dsimp only at he
  set c := (s.recvframe f).preorderCtrl with hc
  -- the locked part, on the frame or on the frame with a new header
  have hlocked : ∀ {fr : RecvFrame}, (s.recvframe f).SameBut fr →
      (s.reorderCtrl c).enable = true →
      (s.updateFrame f fun _ => fr).reorderLocked c f = some (st, s') →
      (st ≠ .success ∧ Owned b L s' ∧ (s'.driverUp = false → ReorderLoses s f)) ∨
        (st = .success ∧ ∃ L', Owned b L' s' ∧ (¬ ReorderLoses s f → L' = L \ {f})) := by
    intro fr hsame hen hlock
    have hup : (s.updateFrame f fun _ => fr).driverUp = s.driverUp := rfl
    rcases owned_reorderLocked (h.congr (sameLists_updateFrame s f fun _ => fr)) hf hlock with
      ⟨hst, h', hup', hl⟩ | ⟨hst, L', h', heq⟩
    · refine Or.inl ⟨hst, h', fun hdown => ⟨?_, hht, Or.inr ⟨hen, ?_⟩⟩⟩
      · rw [← hup, ← hup']
        exact hdown
      · exact (lockedLoses_updateFrame hsame).mp hl
    · refine Or.inr ⟨hst, L', h', fun hno => heq ?_⟩
      rw [hup]
      by_contra hcond
      push Not at hcond
      refine hno ⟨by simpa using hcond.1, hht, Or.inr ⟨hen, ?_⟩⟩
      exact (lockedLoses_updateFrame hsame).mp hcond.2
  split at he
  · rename_i ha
    split at he
    · rename_i hen
      refine hlocked ⟨rfl, rfl, rfl⟩ hen ?_
      rw [updateFrame, Function.update_eq_self]
      exact he
    · cases he
      obtain ⟨fr, avail, heq, -⟩ := (s.setIndicateSeq c (s.seqNumOf f)).amsduToMsdu_eq f
      have h₁ : Owned b (L \ {f}) ((s.setIndicateSeq c (s.seqNumOf f)).amsduToMsdu f) := by
        rw [heq]
        exact (h.congr (sameLists_setReorderCtrl ..)).consumed (fun _ => h.notMem_queue hf _) ..
      exact Or.inr ⟨rfl, _, h₁.congr (sameLists_setReorderCtrl ..), fun _ => rfl⟩
  · rename_i ha
    obtain ⟨t, hw, he⟩ := Option.bind_eq_some_iff.mp he
    obtain ⟨fr, hfr, rfl⟩ := wlanhdrToEthhdr_eq hw
    have hsame := RecvFrame.wlanhdrToEthhdr_sameBut hfr
    have h₁ := h.congr (sameLists_updateFrame s f fun _ => fr)
    have hq : ((s.updateFrame f fun _ => fr).recvframe f).attrib = (s.recvframe f).attrib := by
      rw [recvframe_updateFrame, Function.update_self, hsame.2.1]
    rw [hq] at he
    split at he
    · rename_i hqos
      split at he
      · obtain ⟨u, hu, hst⟩ := Option.map_eq_some_iff.mp he
        cases hst
        obtain ⟨fr', avail, inds, rfl, -⟩ := rtwRecvIndicatepkt_eq hu
        exact Or.inr ⟨rfl, _, h₁.consumed (fun _ => h₁.notMem_queue hf _) .., fun _ => rfl⟩
      · cases he
        refine Or.inl ⟨by simp, h₁, fun hdown => ⟨hdown, hht, Or.inl ⟨?_, ?_⟩⟩⟩
        · simpa using ha
        · simpa using hqos
    · split at he
      · rename_i hen
        exact hlocked hsame hen he
      · obtain ⟨u, hu, hst⟩ := Option.map_eq_some_iff.mp he
        cases hst
        obtain ⟨fr', avail, inds, rfl, -⟩ := rtwRecvIndicatepkt_eq hu
        refine Or.inr ⟨rfl, L \ {f}, ?_, fun _ => rfl⟩
        exact ((h₁.congr (sameLists_setReorderCtrl ..)).consumed
          (fun _ => h₁.notMem_queue hf _) ..).congr (sameLists_setReorderCtrl ..)

/-- `process_recv_indicatepkts` leaves the frame with its caller, or takes it over. -/
theorem owned_processRecvIndicatepkts {ok : Bool} (h : Owned b L s) (hf : f ∈ L)
    (he : s.processRecvIndicatepkts f = some (ok, s')) :
    (ok = false ∧ Owned b L s') ∨
      (ok = true ∧ ∃ L', Owned b L' s' ∧ (¬ ReorderLoses s f → L' = L \ {f})) := by
  unfold processRecvIndicatepkts at he
  split at he
  · rename_i hht
    obtain ⟨⟨st, t⟩, hr, he⟩ := Option.map_eq_some_iff.mp he
    dsimp only at he
    rcases owned_recvIndicatepktReorder h hf hht hr with ⟨hst, h', hdown⟩ | ⟨rfl, L', h', heq⟩
    · split at he
      · cases he
        exact Or.inl ⟨rfl, h'⟩
      · rename_i hup
        cases he
        refine Or.inr ⟨rfl, L, h', fun hno => absurd (hdown ?_) hno⟩
        simpa [hst] using hup
    · rw [if_neg (by simp)] at he
      cases he
      exact Or.inr ⟨rfl, L', h', heq⟩
  · obtain ⟨t, hw, he⟩ := Option.bind_eq_some_iff.mp he
    obtain ⟨fr, -, rfl⟩ := wlanhdrToEthhdr_eq hw
    have h₁ := h.congr (sameLists_updateFrame s f fun _ => fr)
    split at he
    · obtain ⟨u, hu, hst⟩ := Option.map_eq_some_iff.mp he
      cases hst
      obtain ⟨fr', avail, inds, rfl, -⟩ := rtwRecvIndicatepkt_eq hu
      exact Or.inr ⟨rfl, _, h₁.consumed (fun _ => h₁.notMem_queue hf _) .., fun _ => rfl⟩
    · cases he
      exact Or.inl ⟨rfl, h₁⟩

/-- A timeout loses no frame. -/
theorem owned_timeout {c : StaId × Fin 16} (h : Owned b L s)
    (he : s.rtwReorderingCtrlTimeoutHandler c = some s') : Owned b L s' := by
  rcases timeout_cases he with rfl | ⟨hup, f, fs, more, hp, hloop⟩
  · exact h
  · have h₁ : Owned b L (s.setIndicateSeq c (s.seqNumOf f)) := h.congr (sameLists_setReorderCtrl ..)
    obtain ⟨L', h₂, heq⟩ := owned_inOrderLoop h₁ (hp ▸ h.nodup _) (fun g hg => hp ▸ hg) hloop
    exact heq (Or.inl hup) ▸ h₂

/-! ## recv_func -/

variable {mgt : Adapter RecvId → RecvId → List MlmeOp}

/-- What `recv_func_posthandle` loses. -/
def PosthandleLoses (s : Adapter RecvId) (f : RecvId) : Prop :=
  ∃ t, s.decryptor f = (true, t) ∧ (LosesHead t f ∨
    ∃ u, t.recvframeChkDefrag f = some (some f, u) ∧ u.portctrl f = (true, u) ∧ ReorderLoses u f)

theorem owned_portctrl {ok : Bool} (h : Owned b L s) (hf : f ∈ L)
    (he : s.portctrl f = (ok, s')) :
    (ok = true ∧ s' = s) ∨ (ok = false ∧ Owned b (L \ {f}) s') := by
  unfold portctrl at he
  dsimp only at he
  split at he
  · split at he
    · cases he
      exact Or.inl ⟨rfl, rfl⟩
    · cases he
      exact Or.inr ⟨rfl, h.free_lost hf⟩
  · cases he
    exact Or.inl ⟨rfl, rfl⟩

theorem owned_recvFuncPosthandle (h : Owned b L s) (hf : f ∈ L)
    (he : s.recvFuncPosthandle f = some s') :
    ∃ L', Owned b L' s' ∧ (¬ PosthandleLoses s f → L' = L \ {f}) := by
  unfold recvFuncPosthandle at he
  obtain ⟨fr, hw, message, -, hd | hd⟩ := s.decryptor_eq f
  · rw [hd] at he
    dsimp only at he
    have h₁ := h.congr (sameLists_touched s f fr hw s.securitypriv.bcheckGrpkey message)
    obtain ⟨⟨r, u⟩, hdef, he⟩ := Option.bind_eq_some_iff.mp he
    rcases owned_recvframeChkDefrag h₁ hf hdef with ⟨rfl, h₂⟩ | ⟨rfl, L', h₂, heq, -⟩
    · dsimp only at he
      cases hp : u.portctrl f with
      | mk ok v =>
        rw [hp] at he
        rcases owned_portctrl h₂ hf hp with ⟨rfl, rfl⟩ | ⟨rfl, h₃⟩
        · dsimp only at he
          obtain ⟨⟨ok', w⟩, hproc, rfl⟩ := Option.map_eq_some_iff.mp he
          rcases owned_processRecvIndicatepkts h₂ hf hproc with ⟨rfl, h₃⟩ | ⟨rfl, L', h₃, heq⟩
          · exact ⟨_, h₃.free_lost hf, fun _ => rfl⟩
          · exact ⟨L', h₃, fun hno => heq fun hl => hno ⟨_, hd, Or.inr ⟨v, hdef, hp, hl⟩⟩⟩
        · cases he
          exact ⟨_, h₃, fun _ => rfl⟩
    · cases he
      exact ⟨L', h₂, fun hno => heq fun hl => hno ⟨_, hd, Or.inl hl⟩⟩
  · rw [hd] at he
    cases he
    exact ⟨_, (h.congr (sameLists_touched ..)).free_lost hf, fun _ => rfl⟩

/-- The frame gets to the checks of `validate_recv_frame` for management frames. -/
def IsMgnt (s : Adapter RecvId) (f : RecvId) : Prop :=
  ¬ (s.mpMode ∧ !checkFwstate s.mlmepriv.fwState wifiMpLpbkState) ∧
    (s.recvframe f).mem (s.recvframe f).rxData &&& 0x3 = 0 ∧
    getFrameType (s.recvframe f).mem (s.recvframe f).rxData = wifiMgtType

/-- A management frame that `recvframe_chk_defrag` frees, and `recv_func_prehandle` frees
again. -/
def MgntFreesTwice (s : Adapter RecvId) (f : RecvId) : Prop :=
  IsMgnt s f ∧ DefragFrees (s.updateFrame f readHeader) f

/-- What `recv_func_prehandle` loses on a management frame. -/
def PrehandleLoses (mgt : Adapter RecvId → RecvId → List MlmeOp) (s : Adapter RecvId)
    (f : RecvId) : Prop :=
  IsMgnt s f ∧ (LosesHead (s.updateFrame f readHeader) f ∨
    ∃ t, (s.updateFrame f readHeader).recvframeChkDefrag f = some (some f, t) ∧
      ¬ Along mlmeOp (fun s op => ¬ OpLoses s op) t (mgt t f))

theorem sameLists_validateRecvDataFrame (s : Adapter RecvId) (f : RecvId) :
    SameLists s (s.validateRecvDataFrame f).2 := by
  unfold validateRecvDataFrame
  dsimp only
  split
  · split
    · exact ⟨rfl, rfl, rfl⟩
    · refine ⟨?_, ?_, ?_⟩ <;> simp only [updateFrame, updateSta]
  · exact ⟨rfl, rfl, rfl⟩
  · exact ⟨rfl, rfl, rfl⟩

/-- A management frame is left with the caller, or on a list, and none of the frames handled
by connection management is `f`. -/
theorem owned_validateRecvMgntFrame (h : Owned b L s) (hf : f ∈ L)
    (he : s.validateRecvMgntFrame mgt f = some s') :
    ∃ L', Owned b L' s' ∧ (¬ DefragFrees s f → f ∉ s'.queue .freeRecv) ∧
      (¬ (LosesHead s f ∨ ∃ t, s.recvframeChkDefrag f = some (some f, t) ∧
        ¬ Along mlmeOp (fun s op => ¬ OpLoses s op) t (mgt t f)) → L' \ {f} = L \ {f}) := by
  obtain ⟨⟨r, t⟩, hdef, rfl⟩ := Option.map_eq_some_iff.mp he
  rcases owned_recvframeChkDefrag h hf hdef with ⟨rfl, h₁⟩ | ⟨rfl, L', h₁, heq, hfree⟩
  · obtain ⟨L', hsub, h₂, heq⟩ := owned_mlmeOps (mgt t f) h₁
    refine ⟨L', h₂, fun _ => h₂.notMem_queue (hsub hf) _, fun hno => ?_⟩
    rw [heq]
    by_contra hal
    exact hno (Or.inr ⟨t, hdef, hal⟩)
  · refine ⟨L', h₁, hfree, fun hno => ?_⟩
    rw [heq fun hl => hno (Or.inl hl)]
    simp

theorem owned_recvFuncPrehandle {st : Status} (h : Owned b L s) (hf : f ∈ L)
    (hb : b = true → ¬ MgntFreesTwice s f) (he : s.recvFuncPrehandle mgt f = some (st, s')) :
    (st = .success ∧ Owned b L s') ∨
      (st ≠ .success ∧ ∃ L', Owned b L' s' ∧ (¬ PrehandleLoses mgt s f → L' = L \ {f})) := by
  unfold recvFuncPrehandle at he
  split at he
  · cases he
    exact Or.inr ⟨by simp, _, h.free_lost hf, fun _ => rfl⟩
  rename_i hmp
  obtain ⟨⟨st₁, t⟩, hval, he⟩ := Option.map_eq_some_iff.mp he
  -- frames that stay with the receive path, or are dropped
  have hkeep : Owned b L t → (st = .success ∧ Owned b L s') ∨
      (st ≠ .success ∧ ∃ L', Owned b L' s' ∧ (¬ PrehandleLoses mgt s f → L' = L \ {f})) := by
    intro ht
    split at he
    · rename_i hok
      cases he
      exact Or.inl ⟨hok, ht⟩
    · rename_i hok
      cases he
      exact Or.inr ⟨hok, _, ht.free_lost hf, fun _ => rfl⟩
  unfold validateRecvFrame at hval
  dsimp only at hval
  split at hval
  · cases hval
    exact hkeep h
  rename_i hver
  have h₁ := h.congr (sameLists_updateFrame s f readHeader)
  split at hval
  · rename_i htype
    have hmgnt : IsMgnt s f := ⟨hmp, not_not.mp hver, htype⟩
    obtain ⟨u, hu, hst⟩ := Option.map_eq_some_iff.mp hval
    cases hst
    obtain ⟨L', h₂, hfree, heq⟩ := owned_validateRecvMgntFrame h₁ hf hu
    rw [if_neg (by simp)] at he
    cases he
    refine Or.inr ⟨by simp, _, h₂.free fun hbt => hfree fun hd => hb hbt ⟨hmgnt, hd⟩, fun hno => ?_⟩
    exact heq fun hl => hno ⟨hmgnt, hl⟩
  · split at hval
    · refine hkeep ?_
      have hv := Option.some.inj hval
      have ht : t = ((((s.updateFrame f readHeader).updateFrame f fun fr =>
        { fr with attrib :=
          { fr.attrib with qos := (getFrameSubType fr.mem fr.rxData).testBit 7 } })
            ).validateRecvDataFrame f).2 := by
        rw [hv]
      rw [ht]
      exact (h₁.congr (sameLists_updateFrame ..)).congr (sameLists_validateRecvDataFrame ..)
    · cases hval
      exact hkeep h₁

/-- What `recv_func` loses on a frame, from the call of `recv_func_prehandle` on. -/
def RecvFuncLoses (mgt : Adapter RecvId → RecvId → List MlmeOp) (s : Adapter RecvId)
    (f : RecvId) : Prop :=
  PrehandleLoses mgt s f ∨ ∃ t, s.recvFuncPrehandle mgt f = some (.success, t) ∧
    if t.lacksKey (t.recvframe f).attrib then
      (t.rtwEnqueueRecvframe f .ucSwdecPending).freeRecvframeCnt < nrRecvframe / 4 ∧
        ∃ g u, (t.rtwEnqueueRecvframe f .ucSwdecPending).rtwAllocRecvframe .ucSwdecPending
          = some (g, u) ∧ PosthandleLoses u g
    else PosthandleLoses t f

theorem owned_rtwEnqueueRecvframe (h : Owned b L s) (hf : f ∈ L) :
    Owned b (L \ {f}) (s.rtwEnqueueRecvframe f .ucSwdecPending) := by
  unfold rtwEnqueueRecvframe
  rw [if_neg (by simp)]
  have hdel : s.listDelInit f = s := by
    unfold Adapter.listDelInit
    rw [unlink_of_occ_eq_zero (h.lost f hf)]
  rw [hdel]
  exact h.listAddTail hf (by simp)

theorem owned_recvFuncFrame (h : Owned b L s) (hf : f ∈ L)
    (hb : b = true → ¬ MgntFreesTwice s f) (he : s.recvFuncFrame mgt f = some s') :
    ∃ L', Owned b L' s' ∧ (¬ RecvFuncLoses mgt s f → L' = L \ {f}) := by
  unfold recvFuncFrame at he
  obtain ⟨⟨st, t⟩, hpre, he⟩ := Option.bind_eq_some_iff.mp he
  dsimp only at he
  rcases owned_recvFuncPrehandle h hf hb hpre with ⟨rfl, h₁⟩ | ⟨hst, L', h₁, heq⟩
  · rw [if_pos rfl] at he
    split at he
    · rename_i hkey
      have h₂ := owned_rtwEnqueueRecvframe h₁ hf
      split at he
      · rename_i hcnt
        split at he
        · cases he
          exact ⟨_, h₂, fun _ => rfl⟩
        · rename_i g u halloc
          obtain ⟨hg, h₃⟩ := h₂.alloc halloc
          obtain ⟨L', h₄, heq⟩ := owned_recvFuncPosthandle h₃ (Set.mem_insert g _) he
          rw [Set.insert_sdiff_self_of_notMem hg] at heq
          refine ⟨L', h₄, fun hno => heq fun hl => hno (Or.inr ⟨t, hpre, ?_⟩)⟩
          rw [if_pos hkey]
          exact ⟨hcnt, g, u, halloc, hl⟩
      · cases he
        exact ⟨_, h₂, fun _ => rfl⟩
    · rename_i hkey
      obtain ⟨L', h₂, heq⟩ := owned_recvFuncPosthandle h₁ hf he
      refine ⟨L', h₂, fun hno => heq fun hl => hno (Or.inr ⟨t, hpre, ?_⟩)⟩
      rwa [if_neg hkey]
  · rw [if_neg hst] at he
    cases he
    exact ⟨L', h₁, fun hno => heq fun hl => hno (Or.inl hl)⟩

end Adapter

end Rtl8188eu
