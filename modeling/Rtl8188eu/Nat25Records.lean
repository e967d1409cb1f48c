import Rtl8188eu.Nat25Db

/-!
# The records of the NAT2.5 database

What the operations of the database do to its records, without the chains : a search finds the
record with the address (`Inv.find_iff`), an insert changes or adds the record of its address
(`networkInsert_cases`), and the loops of `nat25_db_expire` and `nat25_db_cleanup` keep what their
bodies keep (`tableLoop_keeps`). A record that has not expired stays where it is, and keeps its
Ethernet address until another host is inserted with its network address (`record_dbStep`).
-/

namespace Rtl8188eu

open HashChains Runs

namespace Nat25

variable {s t : Nat25} {C : Fin 16 → List DbAddr} {key : NetAddr} {mac : MacAddr} {a b : DbAddr}

namespace Inv

/-- The search finds the record with the address. -/
theorem find_iff (h : Inv s C) :
    s.findEntry key = some (some a) ↔ a ∈ s.used ∧ (s.entry a).networkAddr = key := by
  rw [h.findEntry_eq_some, ← h.used]

/-- The search for an address ends. -/
theorem find_cases (h : Inv s C) (key : NetAddr) :
    s.findEntry key = some none ∨ ∃ a, s.findEntry key = some (some a) := by
  rw [h.findEntry]
  cases (C (nat25NetworkHash key)).find? fun a => decide ((s.entry a).networkAddr = key) with
  | none => exact Or.inl rfl
  | some a => exact Or.inr ⟨a, rfl⟩

/-- A network address is in one record only. -/
theorem eq_of_networkAddr (h : Inv s C) (ha : a ∈ s.used) (hb : b ∈ s.used)
    (hk : (s.entry a).networkAddr = (s.entry b).networkAddr) : a = b := by
  obtain ⟨i, hi⟩ := (h.used a).mp ha
  obtain ⟨j, hj⟩ := (h.used b).mp hb
  exact h.unique i j a hi b hj hk

end Inv

/-- The bytes of an IP address can be read from its network address. -/
theorem nat25GenerateIpv4NetworkAddr_inj {ip ip' : IpAddr}
    (h : nat25GenerateIpv4NetworkAddr ip = nat25GenerateIpv4NetworkAddr ip') : ip = ip' := by
  have hbyte := fun (i : ℕ) (hi : i < 17) => congrArg (fun v : NetAddr => v[i]) h
  have h0 := hbyte 7 (by omega)
  have h1 := hbyte 8 (by omega)
  have h2 := hbyte 9 (by omega)
  have h3 := hbyte 10 (by omega)
  simp only [nat25GenerateIpv4NetworkAddr, Vector.getElem_mk, List.getElem_toArray,
    List.getElem_cons_succ,
    List.getElem_cons_zero] at h0 h1 h2 h3
  refine Vector.ext fun i hi => ?_
  interval_cases i
  · exact h0
  · exact h1
  · exact h2
  · exact h3

/-! ## One operation -/

theorem updateEntry_entry (f : Nat25Entry → Nat25Entry) (a b : DbAddr) :
    (s.updateEntry b f).entry a = if a = b then f (s.entry a) else s.entry a := by
  unfold updateEntry
  rcases eq_or_ne a b with rfl | hab
  · simp
  · simp [hab]

/-- An insert changes the record of its address, or adds it, or there is no memory for it. -/
theorem networkInsert_cases {mem : Option DbAddr} (ht : s.networkInsert mac key mem = some t) :
    (∃ a, s.findEntry key = some (some a) ∧
      t = s.updateEntry a fun e => { e with macAddr := mac, ageingTimer := s.jiffies }) ∨
    (s.findEntry key = some none ∧ ∃ a, s.rtwMalloc mem = some a ∧ t = s.linkEntry a mac key) ∨
    (s.findEntry key = some none ∧ s.rtwMalloc mem = none ∧ t = s) := by
  unfold networkInsert at ht
  obtain ⟨r, hr, ht⟩ := Option.map_eq_some_iff.mp ht
  cases r with
  | some a => exact Or.inl ⟨a, hr, ht.symm⟩
  | none =>
    cases hm : s.rtwMalloc mem with
    | none =>
      simp only [hm] at ht
      exact Or.inr (Or.inr ⟨hr, rfl, ht.symm⟩)
    | some a =>
      simp only [hm] at ht
      exact Or.inr (Or.inl ⟨hr, a, rfl, ht.symm⟩)

/-- An insert changes neither the clock nor the shortcut. -/
theorem networkInsert_frame {mem : Option DbAddr} (ht : s.networkInsert mac key mem = some t) :
    t.jiffies = s.jiffies ∧ t.hz = s.hz ∧ t.scdbMac = s.scdbMac ∧ t.scdbIp = s.scdbIp ∧
      t.scdbEntry = s.scdbEntry := by
  obtain ⟨a, -, rfl⟩ | ⟨-, a, -, rfl⟩ | ⟨-, -, rfl⟩ := networkInsert_cases ht
  · exact ⟨rfl, rfl, rfl, rfl, rfl⟩
  · exact ⟨rfl, rfl, rfl, rfl, rfl⟩
  · exact ⟨rfl, rfl, rfl, rfl, rfl⟩

theorem not_mem_used_of_rtwMalloc {mem : Option DbAddr} (hm : s.rtwMalloc mem = some a) :
    a ∉ s.used := by
  simpa using (Option.filter_eq_some_iff.mp hm).2

/-- There is a record for the address of an insert, or memory for one. -/
def CanInsert (s : Nat25) (key : NetAddr) (mem : Option DbAddr) : Prop :=
  (∃ a, s.findEntry key = some (some a)) ∨ ∃ a, s.rtwMalloc mem = some a

/-- After an insert there is a record of the host, unless there was no memory. -/
theorem Inv.inserted (h : Inv s C) {mem : Option DbAddr} (ht : s.networkInsert mac key mem = some t)
    (hcan : s.CanInsert key mem) :
    ∃ a ∈ t.used, (t.entry a).networkAddr = key ∧ (t.entry a).macAddr = mac ∧
      (t.entry a).ageingTimer = s.jiffies := by
  obtain ⟨a, hf, rfl⟩ | ⟨hf, a, -, rfl⟩ | ⟨hf, hm, rfl⟩ := networkInsert_cases ht
  · obtain ⟨ha, hk⟩ := h.find_iff.mp hf
    refine ⟨a, ha, ?_, ?_, ?_⟩
    · simpa [updateEntry_entry] using hk
    · simp [updateEntry_entry]
    · simp [updateEntry_entry]
  · refine ⟨a, List.mem_cons_self, ?_, ?_, ?_⟩
    · simp [Nat25.linkEntry]
    · simp [Nat25.linkEntry]
    · simp [Nat25.linkEntry]
  · rcases hcan with ⟨b, hb⟩ | ⟨b, hb⟩
    · rw [hf] at hb
      cases hb
    · rw [hm] at hb
      cases hb

/-- A record is changed by an insert only if it has the address. -/
theorem Inv.insert_record (h : Inv s C) {mem : Option DbAddr}
    (ht : s.networkInsert mac key mem = some t)
    (ha : a ∈ s.used) :
    a ∈ t.used ∧ (t.entry a = s.entry a ∨ ((s.entry a).networkAddr = key ∧
      t.entry a = { s.entry a with macAddr := mac, ageingTimer := s.jiffies })) := by
  obtain ⟨b, hf, rfl⟩ | ⟨-, b, hm, rfl⟩ | ⟨-, -, rfl⟩ := networkInsert_cases ht
  · refine ⟨ha, ?_⟩
    rcases eq_or_ne a b with rfl | hab
    · exact Or.inr ⟨(h.find_iff.mp hf).2, by simp [updateEntry_entry]⟩
    · exact Or.inl (by simp [updateEntry_entry, hab])
  · have hab : a ≠ b := ne_of_mem_of_not_mem ha (not_mem_used_of_rtwMalloc hm)
    exact ⟨List.mem_cons_of_mem b ha, Or.inl (by simp [Nat25.linkEntry, hab])⟩
  · exact ⟨ha, Or.inl rfl⟩

/-- A lookup counts the use of a record. -/
theorem networkLookupAndReplace_frame {r : Bool × Option MacAddr × Nat25}
    (hr : s.networkLookupAndReplace key = some r) :
    r.2.2 = s ∨ ∃ b, r.2.2 = s.updateEntry b fun e => { e with useCount := e.useCount + 1 } := by
  unfold networkLookupAndReplace at hr
  obtain ⟨f, -, rfl⟩ := Option.map_eq_some_iff.mp hr
  split
  · exact Or.inl rfl
  · rename_i b
    split
    · exact Or.inl rfl
    · exact Or.inr ⟨b, rfl⟩

/-! ## The loops -/

variable {body : Nat25 → DbAddr → Option Nat25} {P : Nat25 → Prop}

/-- What the body keeps is kept by the loop over a chain. -/
theorem chainLoop_keeps (hb : ∀ s f t, P s → body s f = some t → P t) :
    ∀ {fuel : ℕ} {f : Option DbAddr} {s t : Nat25}, P s → chainLoop body fuel f s = some t → P t
  | fuel, none, s, t, hs, ht => by
    have hst : s = t := by
      cases fuel with
      | zero => exact Option.some.inj ht
      | succ n => exact Option.some.inj ht
    exact hst ▸ hs
  | 0, some _, _, _, _, ht => nomatch ht
  | fuel + 1, some f, s, t, hs, ht => by
    rw [chainLoop] at ht
    split at ht
    · obtain ⟨u, hu, ht⟩ := Option.bind_eq_some_iff.mp ht
      exact chainLoop_keeps hb (hb s f u hs hu) ht
    · cases ht

/-- What the body keeps is kept by the loop over the table. -/
theorem tableLoop_keeps (hb : ∀ s f t, P s → body s f = some t → P t) (hs : P s)
    (ht : tableLoop body s = some t) : P t := by
  have hloop : ∀ (is : List (Fin 16)) {s t : Nat25}, P s →
      is.foldlM (fun s i => chainLoop body s.used.length (s.links.head i) s) s = some t → P t := by
    intro is
    induction is with
    | nil =>
      intro s t hs ht
      exact Option.some.inj ht ▸ hs
    | cons i is ih =>
      intro s t hs ht
      rw [List.foldlM_cons] at ht
      obtain ⟨u, hu, ht⟩ := Option.bind_eq_some_iff.mp ht
      exact ih (chainLoop_keeps hb hs hu) ht
  exact hloop _ hs ht

/-- What `freeEntry` does to the records and to the shortcut. -/
theorem freeEntry_frame {f : DbAddr} (ht : s.freeEntry f = some t) :
    t.entry = s.entry ∧ t.used = s.used.filter (· ≠ f) ∧ t.jiffies = s.jiffies ∧ t.hz = s.hz ∧
      (t.scdbEntry = none ∨
        (t.scdbEntry = s.scdbEntry ∧ t.scdbMac = s.scdbMac ∧ t.scdbIp = s.scdbIp ∧
        s.scdbEntry ≠ some f)) := by
  unfold freeEntry at ht
  extract_lets u at ht
  obtain ⟨links, -, rfl⟩ := Option.map_eq_some_iff.mp ht
  have hu : u = s.scdbForget f := rfl
  clear_value u
  unfold scdbForget at hu
  split at hu
  · subst hu
    exact ⟨rfl, rfl, rfl, rfl, Or.inl rfl⟩
  · rename_i hne
    subst hu
    exact ⟨rfl, rfl, rfl, rfl, Or.inr ⟨rfl, rfl, rfl, hne⟩⟩

/-- `nat25_db_expire` leaves a record that has not expired alone. -/
theorem dbExpire_record (ht : s.dbExpire = some t) (ha : a ∈ s.used)
    (hexp : s.hasExpired (s.entry a) = false) :
    a ∈ t.used ∧ t.entry a = s.entry a ∧ t.jiffies = s.jiffies ∧ t.hz = s.hz := by
  refine tableLoop_keeps
    (P := fun u => a ∈ u.used ∧ u.entry a = s.entry a ∧ u.jiffies = s.jiffies ∧ u.hz = s.hz)
    (fun u f v ⟨hu, he, hj, hz⟩ hv => ?_) ⟨ha, rfl, rfl, rfl⟩ ht
  unfold expireEntry at hv
  split at hv
  · rename_i hfexp
    -- the body frees expired records only, and `a` is not one of them
    have haf : a ≠ f := by
      rintro rfl
      have hsame : u.hasExpired (u.entry a) = s.hasExpired (s.entry a) := by
        rw [he]
        unfold hasExpired timeout
        rw [hj, hz]
      rw [hsame, hexp] at hfexp
      cases hfexp
    have hw : (u.updateEntry f fun e => { e with useCount := e.useCount - 1 }).entry a =
      s.entry a := by
      rw [updateEntry_entry, if_neg haf, he]
    dsimp only at hv
    split at hv
    · obtain ⟨hentry, hused, hj', hz', -⟩ := freeEntry_frame hv
      refine ⟨?_, by rw [hentry, hw], hj'.trans hj, hz'.trans hz⟩
      rw [hused]
      exact List.mem_filter.mpr ⟨hu, by simpa using haf⟩
    · cases hv
      exact ⟨hu, hw, hj, hz⟩
  · cases hv
    exact ⟨hu, he, hj, hz⟩

/-! ## Runs -/

/-- A frame sets the shortcut to a record, or finds it set, or goes on without it. -/
theorem scdbTx_cases {ip : IpAddr} {r : Bool × Nat25} (hr : s.scdbTx mac ip = some r) :
    (s.scdbMac ≠ mac ∧ ∃ b, s.scdbFindEntry ip = some (some b) ∧
      r = (false, { s with scdbEntry := some b, scdbMac := mac, scdbIp := ip }.updateEntry b
        fun e => { e with ageingTimer := s.jiffies })) ∨
    (s.scdbMac ≠ mac ∧ s.scdbFindEntry ip = some none ∧ r = (true, { s with scdbEntry := none })) ∨
    (s.scdbMac = mac ∧ ∃ b, s.scdbEntry = some b ∧
      r = (false, s.updateEntry b fun e => { e with ageingTimer := s.jiffies })) ∨
    (s.scdbMac = mac ∧ s.scdbEntry = none ∧
      r = (true, { s with scdbMac := zeroAddr, scdbIp := Vector.replicate 4 0 })) := by
  have htouch : ∀ (u v : Nat25) (b : DbAddr), u.scdbTouch b = some v →
      v = u.updateEntry b fun e => { e with ageingTimer := u.jiffies } := by
    intro u v b hv
    unfold scdbTouch at hv
    split at hv
    · exact (Option.some.inj hv).symm
    · cases hv
  unfold scdbTx at hr
  split at hr
  · rename_i hmac
    obtain ⟨f, hf, hr⟩ := Option.bind_eq_some_iff.mp hr
    cases f with
    | some b =>
      obtain ⟨v, hv, rfl⟩ := Option.map_eq_some_iff.mp hr
      exact Or.inl ⟨hmac, b, hf, by rw [htouch _ v b hv]⟩
    | none => exact Or.inr (Or.inl ⟨hmac, hf, (Option.some.inj hr).symm⟩)
  · rename_i hmac
    split at hr
    · rename_i b hb
      obtain ⟨v, hv, rfl⟩ := Option.map_eq_some_iff.mp hr
      exact Or.inr (Or.inr (Or.inl ⟨not_not.mp hmac, b, hb, by rw [htouch _ v b hv]⟩))
    · rename_i hnone
      exact Or.inr (Or.inr (Or.inr ⟨not_not.mp hmac, hnone, (Option.some.inj hr).symm⟩))

/-- The record of the shortcut is touched, and no other. -/
theorem scdbTx_frame {ip : IpAddr} {r : Bool × Nat25} (hr : s.scdbTx mac ip = some r) :
    r.2.used = s.used ∧ ∀ b, (r.2.entry b).networkAddr = (s.entry b).networkAddr ∧
      (r.2.entry b).macAddr = (s.entry b).macAddr := by
  have htouch : ∀ (u : Nat25) (b c : DbAddr),
      ((u.updateEntry b fun e => { e with ageingTimer := s.jiffies }).entry c).networkAddr =
        (u.entry c).networkAddr ∧
      ((u.updateEntry b fun e => { e with ageingTimer := s.jiffies }).entry c).macAddr =
        (u.entry c).macAddr := by
    intro u b c
    rw [updateEntry_entry]
    split
    · exact ⟨rfl, rfl⟩
    · exact ⟨rfl, rfl⟩
  obtain ⟨-, b, -, rfl⟩ | ⟨-, -, rfl⟩ | ⟨-, b, -, rfl⟩ | ⟨-, -, rfl⟩ := scdbTx_cases hr
  · exact ⟨rfl, fun c => htouch _ b c⟩
  · exact ⟨rfl, fun _ => ⟨rfl, rfl⟩⟩
  · exact ⟨rfl, fun c => htouch s b c⟩
  · exact ⟨rfl, fun _ => ⟨rfl, rfl⟩⟩

/-- A record that has not expired stays, and keeps its host until another is inserted with the
address. -/
theorem record_dbStep (h : Inv s C) {e : DbEvent} (ht : s.dbStep e = some t) (ha : a ∈ s.used)
    (hexp : s.hasExpired (s.entry a) = false) (he : e ≠ .cleanup) :
    a ∈ t.used ∧ (t.entry a).networkAddr = (s.entry a).networkAddr ∧
      ((t.entry a).macAddr = (s.entry a).macAddr ∨
        ∃ mem, e = .insert (t.entry a).macAddr (s.entry a).networkAddr mem) := by
  cases e with
  | insert mac key mem =>
    obtain ⟨hat, hsame | ⟨hkey, hnew⟩⟩ := h.insert_record ht ha
    · rw [hsame]
      exact ⟨hat, rfl, Or.inl rfl⟩
    · rw [hnew]
      exact ⟨hat, rfl, Or.inr ⟨mem, by rw [hkey]⟩⟩
  | lookup key =>
    obtain ⟨r, hr, rfl⟩ := Option.map_eq_some_iff.mp ht
    obtain hs | ⟨b, hs⟩ := networkLookupAndReplace_frame hr
    · rw [hs]
      exact ⟨ha, rfl, Or.inl rfl⟩
    · rw [hs, updateEntry_entry]
      refine ⟨ha, ?_, Or.inl ?_⟩
      · split
        · rfl
        · rfl
      · split
        · rfl
        · rfl
  | clientTx mac ip =>
    obtain ⟨r, hr, rfl⟩ := Option.map_eq_some_iff.mp ht
    obtain ⟨hused, hrec⟩ := scdbTx_frame hr
    exact ⟨hused ▸ ha, (hrec a).1, Or.inl (hrec a).2⟩
  | expire =>
    obtain ⟨hat, hsame, -⟩ := dbExpire_record ht ha hexp
    rw [hsame]
    exact ⟨hat, rfl, Or.inl rfl⟩
  | cleanup => exact absurd rfl he
  | clock jiffies =>
    cases ht
    exact ⟨ha, rfl, Or.inl rfl⟩

end Nat25

end Rtl8188eu
