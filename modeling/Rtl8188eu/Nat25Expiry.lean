import Rtl8188eu.Nat25Records

/-!
# Old records of the NAT2.5 database

A record that has expired is not used, but a search still finds it, and says so. `nat25_db_expire`
takes one from its use count, which was raised by every lookup before, and frees the record when the
count is zero.

The database is run with a clock that does not wrap, and with the time of the last insert of each
address (`AgedDb`). `expiry_iff` says when an old record is as if it were absent, and when the next
`nat25_db_expire` takes it out ; `linked_iff_of_ticks` how often that has to be called.
-/

namespace Rtl8188eu

open HashChains Runs

namespace Nat25

variable {s t u : Nat25} {C : Fin 16 → List DbAddr} {key : NetAddr} {a b : DbAddr}

/-! ## One tick -/

/-- The record at `a`, if it is linked. -/
def record (s : Nat25) (a : DbAddr) : Option Nat25Entry :=
    if a ∈ s.used then some (s.entry a) else none

/-- What `nat25_db_expire` makes of a record. -/
def tickEntry (s : Nat25) (e : Nat25Entry) : Option Nat25Entry :=
  if s.hasExpired e then
    if e.useCount - 1 = 0 then none else some { e with useCount := e.useCount - 1 }
  else some e

/-- The records `as` were visited, and no others. -/
structure Ticked (s t : Nat25) (as : List DbAddr) : Prop where
  record : ∀ b, t.record b = if b ∈ as then (s.record b).bind s.tickEntry else s.record b
  jiffies : t.jiffies = s.jiffies
  hz : t.hz = s.hz

theorem record_eq_some {e : Nat25Entry} : s.record a = some e ↔ a ∈ s.used ∧ s.entry a = e := by
  unfold record
  split_ifs with ha
  · exact ⟨fun h => ⟨ha, Option.some.inj h⟩, fun h => congrArg some h.2⟩
  · exact ⟨nofun, fun h => absurd h.1 ha⟩

theorem record_eq_none : s.record a = none ↔ a ∉ s.used := by
  unfold record
  split_ifs with ha
  · exact ⟨nofun, fun h => absurd ha h⟩
  · exact ⟨fun _ => ha, fun _ => rfl⟩

theorem tickEntry_congr (hj : t.jiffies = s.jiffies) (hz : t.hz = s.hz) :
    t.tickEntry = s.tickEntry := by
  funext e
  unfold tickEntry hasExpired timeout
  rw [hj, hz]

theorem Ticked.nil (s : Nat25) : Ticked s s [] :=
    ⟨fun b => by rw [if_neg List.not_mem_nil], rfl, rfl⟩

theorem Ticked.append {as bs : List DbAddr} (h : Ticked s t as) (h' : Ticked t u bs)
    (hd : ∀ b ∈ as, b ∉ bs) :
    Ticked s u (as ++ bs) := by
  refine ⟨fun b => ?_, h'.jiffies.trans h.jiffies, h'.hz.trans h.hz⟩
  rw [h'.record, h.record, tickEntry_congr h.jiffies h.hz]
  by_cases hb : b ∈ as
  · rw [if_neg (hd b hb), if_pos hb, if_pos (List.mem_append_left bs hb)]
  · rw [if_neg hb]
    by_cases hb' : b ∈ bs
    · rw [if_pos hb', if_pos (List.mem_append_right as hb')]
    · rw [if_neg hb', if_neg fun hmem => (List.mem_append.mp hmem).elim hb hb']

/-- The body of the loop visits its record. -/
theorem ticked_expireEntry (ha : a ∈ s.used) (ht : s.expireEntry a = some t) : Ticked s t [a] := by
  have hrecord : s.record a = some (s.entry a) := record_eq_some.mpr ⟨ha, rfl⟩
  unfold expireEntry at ht
  by_cases hexp : s.hasExpired (s.entry a) = true
  swap
  · -- the record has not expired
    rw [if_neg hexp] at ht
    cases ht
    refine ⟨fun b => ?_, rfl, rfl⟩
    split_ifs with hb
    · obtain rfl := List.mem_singleton.mp hb
      rw [hrecord, Option.bind_some, tickEntry, if_neg hexp]
    · rfl
  rw [if_pos hexp] at ht
  dsimp only at ht
  have hcount : ((s.updateEntry a fun e => { e with useCount := e.useCount - 1 }).entry a) =
      { s.entry a with useCount := (s.entry a).useCount - 1 } := by
        rw [updateEntry_entry, if_pos rfl]
  have hother : ∀ b ≠ a,
    ((s.updateEntry a fun e => { e with useCount := e.useCount - 1 }).entry b) = s.entry b :=
    fun b hb => by rw [updateEntry_entry, if_neg hb]
  rw [hcount] at ht
  by_cases hzero : (s.entry a).useCount - 1 = 0
  · rw [if_pos hzero] at ht
    obtain ⟨hentry, hused, hj, hz, -⟩ := freeEntry_frame ht
    refine ⟨fun b => ?_, hj, hz⟩
    split_ifs with hb
    · obtain rfl := List.mem_singleton.mp hb
      rw [hrecord, Option.bind_some, tickEntry, if_pos hexp, if_pos hzero, record_eq_none, hused]
      simp
    · have hne : b ≠ a := fun h => hb (List.mem_singleton.mpr h)
      have hmem : b ∈ t.used ↔ b ∈ s.used := by
        rw [hused, List.mem_filter, decide_eq_true_eq]
        exact and_iff_left hne
      unfold record
      rw [hentry, hother b hne]
      simp only [hmem]
  · rw [if_neg hzero] at ht
    cases ht
    refine ⟨fun b => ?_, rfl, rfl⟩
    split_ifs with hb
    · obtain rfl := List.mem_singleton.mp hb
      rw [hrecord, Option.bind_some, tickEntry, if_pos hexp, if_neg hzero]
      exact record_eq_some.mpr ⟨ha, hcount⟩
    · have hne : b ≠ a := fun h => hb (List.mem_singleton.mpr h)
      unfold record
      rw [hother b hne]
      rfl

/-- The loop along the end of a chain. -/
theorem ticked_chainLoop {i : Fin 16} : ∀ (post pre : List DbAddr) {fuel : ℕ} {s t : Nat25}
    {C : Fin 16 → List DbAddr}, Inv s C → C i = pre ++ post →
    chainLoop expireEntry fuel post.head? s = some t →
    Ticked s t post ∧ ∃ ks, Inv t (Function.update C i (pre ++ ks))
  | [], pre, fuel, s, t, C, h, hC, ht => by
    have hst : s = t := by
      cases fuel with
      | zero => exact Option.some.inj ht
      | succ n => exact Option.some.inj ht
    refine ⟨hst ▸ Ticked.nil s, [], ?_⟩
    rw [← hC, Function.update_eq_self]
    exact hst ▸ h
  | a :: post, pre, 0, s, t, C, h, hC, ht => nomatch ht
  | a :: post, pre, fuel + 1, s, t, C, h, hC, ht => by
    have ha : a ∈ s.used := h.mem_used (i := i) (by simp [hC])
    have hchain := h.chains.chain i
    have hnodup := h.chains.nodup i
    rw [hC] at hchain hnodup
    rw [List.head?_cons, chainLoop, if_pos ha, hchain.next_eq] at ht
    obtain ⟨u, hu, ht⟩ := Option.bind_eq_some_iff.mp ht
    have hnew : ∀ b ∈ [a], b ∉ post := by
      intro b hb
      obtain rfl := List.mem_singleton.mp hb
      exact (List.nodup_cons.mp (List.nodup_append.mp hnodup).2.1).1
    have hstep := ticked_expireEntry ha hu
    obtain ⟨u', hu', hinv⟩ := visits_expireEntry h hC
    rw [hu] at hu'
    cases hu'
    rcases hinv with hout | ⟨-, hin⟩
    · obtain ⟨hticked, ks, hinv⟩ := ticked_chainLoop post pre hout (Function.update_self ..) ht
      rw [Function.update_idem] at hinv
      exact ⟨hstep.append hticked hnew, ks, hinv⟩
    · obtain ⟨hticked, ks, hinv⟩ :=
        ticked_chainLoop (i := i) post (pre ++ [a]) hin (by simp [hC]) ht
      rw [List.append_assoc] at hinv
      exact ⟨hstep.append hticked hnew, [a] ++ ks, hinv⟩

/-- `nat25_db_expire` visits every record once. -/
theorem record_dbExpire (h : Inv s C) (ht : s.dbExpire = some t) :
    (∀ b, t.record b = (s.record b).bind s.tickEntry) ∧ t.jiffies = s.jiffies ∧ t.hz = s.hz := by
  have hloop : ∀ (is : List (Fin 16)) {s t : Nat25} {C : Fin 16 → List DbAddr}, is.Nodup → Inv s C →
      is.foldlM (fun s i => chainLoop expireEntry s.used.length (s.links.head i) s) s = some t →
      Ticked s t (is.flatMap C) := by
    intro is
    induction is with
    | nil =>
      intro s t C _ _ ht
      exact Option.some.inj ht ▸ Ticked.nil s
    | cons i is ih =>
      intro s t C hnodup h ht
      obtain ⟨hi, hnodup⟩ := List.nodup_cons.mp hnodup
      rw [List.foldlM_cons, h.chains.head] at ht
      obtain ⟨u, hu, ht⟩ := Option.bind_eq_some_iff.mp ht
      obtain ⟨hticked, ks, hinv⟩ := ticked_chainLoop (C i) [] h rfl hu
      have hrest := ih hnodup hinv ht
      -- the other chains are as they were
      have hsame : is.flatMap (Function.update C i ([] ++ ks)) = is.flatMap C :=
        List.flatMap_congr fun j hj => Function.update_of_ne (ne_of_mem_of_not_mem hj hi) ..
      rw [hsame] at hrest
      rw [List.flatMap_cons]
      refine hticked.append hrest fun b hb hmem => ?_
      obtain ⟨j, hj, hbj⟩ := List.mem_flatMap.mp hmem
      exact hi (h.chains.disjoint hb hbj ▸ hj)
  have hall := hloop _ (List.nodup_finRange 16) h ht
  refine ⟨fun b => ?_, hall.jiffies, hall.hz⟩
  rw [hall.record]
  split_ifs with hb
  · rfl
  · have hnone : s.record b = none := by
      rw [record_eq_none, h.used]
      rintro ⟨i, hi⟩
      exact hb (List.mem_flatMap.mpr ⟨i, List.mem_finRange i, hi⟩)
    rw [hnone]
    rfl

/-! ## The other events -/

/-- An insert changes or adds the record with the address, and no other. -/
theorem Inv.record_networkInsert (h : Inv s C) {mac : MacAddr} {mem : Option DbAddr}
    (ht : s.networkInsert mac key mem = some t) :
    (∀ b e, t.record b = some e → (e.networkAddr = key ∧ e.ageingTimer = s.jiffies) ∨
      (s.record b = some e ∧ e.networkAddr ≠ key)) ∧
    ∀ b e, s.record b = some e → e.networkAddr ≠ key → t.record b = some e := by
  obtain ⟨a, hf, rfl⟩ | ⟨hf, a, hm, rfl⟩ | ⟨hf, -, rfl⟩ := networkInsert_cases ht
  · obtain ⟨ha, hk⟩ := h.find_iff.mp hf
    refine ⟨fun b e he => ?_, fun b e he hne => ?_⟩
    · obtain ⟨hb, rfl⟩ := record_eq_some.mp he
      rw [updateEntry_entry]
      split_ifs with hba
      · exact Or.inl ⟨hba ▸ hk, rfl⟩
      · refine Or.inr ⟨record_eq_some.mpr ⟨hb, rfl⟩, fun hkb => hba ?_⟩
        exact h.eq_of_networkAddr hb ha (hkb.trans hk.symm)
    · obtain ⟨hb, rfl⟩ := record_eq_some.mp he
      have hba : b ≠ a := fun hba => hne (hba ▸ hk)
      exact record_eq_some.mpr ⟨hb, by rw [updateEntry_entry, if_neg hba]⟩
  · have hnew := not_mem_used_of_rtwMalloc hm
    have hold : ∀ b ≠ a, (s.linkEntry a mac key).entry b = s.entry b :=
      fun b hb => Function.update_of_ne hb ..
    refine ⟨fun b e he => ?_, fun b e he hne => ?_⟩
    · obtain ⟨hb, rfl⟩ := record_eq_some.mp he
      rcases eq_or_ne b a with rfl | hba
      · exact Or.inl (by simp [Nat25.linkEntry])
      · rw [hold b hba]
        have hb' : b ∈ s.used := (List.mem_cons.mp hb).resolve_left hba
        refine Or.inr ⟨record_eq_some.mpr ⟨hb', rfl⟩, fun hkb => ?_⟩
        rw [h.find_iff.mpr ⟨hb', hkb⟩] at hf
        cases hf
    · obtain ⟨hb, rfl⟩ := record_eq_some.mp he
      exact record_eq_some.mpr ⟨List.mem_cons_of_mem a hb, hold b (ne_of_mem_of_not_mem hb hnew)⟩
  · refine ⟨fun b e he => ?_, fun b e he _ => he⟩
    refine Or.inr ⟨he, fun hkb => ?_⟩
    obtain ⟨hb, rfl⟩ := record_eq_some.mp he
    rw [h.find_iff.mpr ⟨hb, hkb⟩] at hf
    cases hf

/-- A lookup counts the use of the record with the address, if it has not expired. -/
theorem Inv.record_lookup (h : Inv s C) {r : Bool × Option MacAddr × Nat25}
    (hr : s.networkLookupAndReplace key = some r) (b : DbAddr) :
    r.2.2.record b = (s.record b).map fun e =>
      if e.networkAddr = key ∧ s.hasExpired e = false then
        { e with useCount := e.useCount + 1 } else e := by
  unfold Nat25.networkLookupAndReplace at hr
  obtain ⟨f, hf, rfl⟩ := Option.map_eq_some_iff.mp hr
  cases hrec : s.record b with
  | none =>
    have hb := record_eq_none.mp hrec
    rw [Option.map_none, record_eq_none]
    cases f with
    | none => exact hb
    | some a =>
      dsimp only
      split_ifs
      · exact hb
      · exact hb
  | some e =>
    obtain ⟨hb, rfl⟩ := record_eq_some.mp hrec
    rw [Option.map_some, record_eq_some]
    cases f with
    | none =>
      refine ⟨hb, ?_⟩
      rw [if_neg]
      rintro ⟨hk, -⟩
      rw [h.find_iff.mpr ⟨hb, hk⟩] at hf
      cases hf
    | some a =>
      obtain ⟨ha, hka⟩ := h.find_iff.mp hf
      dsimp only
      by_cases hba : b = a
      · subst hba
        split_ifs with hexp hhit hhit
        · exact absurd (hexp ▸ hhit.2) (by decide)
        · exact ⟨hb, rfl⟩
        · exact ⟨hb, by rw [updateEntry_entry, if_pos rfl]⟩
        · exact absurd ⟨hka, Bool.eq_false_iff.mpr hexp⟩ hhit
      · have hk : ¬((s.entry b).networkAddr = key ∧ s.hasExpired (s.entry b) = false) :=
          fun hk => hba (h.eq_of_networkAddr hb ha (hk.1.trans hka.symm))
        rw [if_neg hk]
        split_ifs
        · exact ⟨hb, rfl⟩
        · exact ⟨hb, by rw [updateEntry_entry, if_neg hba]⟩

/-- There is a record with the address. -/
def Linked (s : Nat25) (key : NetAddr) : Prop := ∃ a ∈ s.used, (s.entry a).networkAddr = key

/-- A lookup says that there is no record, and writes nothing. -/
def AsAbsent (s : Nat25) (key : NetAddr) : Prop :=
  ∃ r, s.networkLookupAndReplace key = some r ∧ r.1 = false ∧ r.2.1 = none

/-- There is a record with the address, and more than `n` visits free it. -/
def Answers (s : Nat25) (key : NetAddr) (n : ℕ) : Prop :=
  ∃ a e, s.record a = some e ∧ e.networkAddr = key ∧ n ≤ (e.useCount - 1).toNat

/-- `NAT25_AGEING_TIME*HZ`. -/
def ageing (s : Nat25) : ℕ := (300 * s.hz).toNat

theorem linked_iff_answers : s.Linked key ↔ s.Answers key 0 := by
  constructor
  · rintro ⟨a, ha, hk⟩
    exact ⟨a, s.entry a, record_eq_some.mpr ⟨ha, rfl⟩, hk, Nat.zero_le _⟩
  · rintro ⟨a, e, he, hk, -⟩
    obtain ⟨ha, rfl⟩ := record_eq_some.mp he
    exact ⟨a, ha, hk⟩

theorem Inv.asAbsent_iff (h : Inv s C) : s.AsAbsent key ↔ ¬s.Linked key := by
  unfold AsAbsent Nat25.networkLookupAndReplace
  rcases h.find_cases key with hf | ⟨a, hf⟩
  · rw [hf]
    refine iff_of_true ⟨_, rfl, rfl, rfl⟩ ?_
    rintro ⟨a, ha, hk⟩
    rw [h.find_iff.mpr ⟨ha, hk⟩] at hf
    cases hf
  · rw [hf]
    refine iff_of_false ?_ fun hno => hno ⟨a, h.find_iff.mp hf⟩
    rintro ⟨r, hr, hfound, -⟩
    cases hr
    dsimp only at hfound
    split_ifs at hfound

/-- The next `nat25_db_expire` leaves no record with the address. -/
def Unlinks (s : Nat25) (key : NetAddr) : Prop := ∃ t, s.dbExpire = some t ∧ ¬t.Linked key

theorem Inv.unlinks_iff (h : Inv s C) : s.Unlinks key ↔
    ∀ a ∈ s.used, (s.entry a).networkAddr = key →
    s.hasExpired (s.entry a) = true ∧ (s.entry a).useCount = 1 := by
  obtain ⟨t, -, ht, -, -⟩ := tableLoop_spec visits_expireEntry h
  have ht : s.dbExpire = some t := ht
  obtain ⟨hrecord, -, -⟩ := record_dbExpire h ht
  have hone : ∀ c : BitVec 32, c - 1 = 0 ↔ c = 1 := fun c => by grind
  constructor
  · rintro ⟨t', ht', hno⟩ a ha hk
    rw [ht] at ht'
    cases ht'
    -- a record that is left is one with the address
    have hleft : ∀ e, s.tickEntry (s.entry a) = some e → e.networkAddr ≠ key := by
      intro e he hke
      have hrec : t.record a = some e := by
        rw [hrecord, record_eq_some.mpr ⟨ha, rfl⟩, Option.bind_some, he]
      obtain ⟨hat, rfl⟩ := record_eq_some.mp hrec
      exact hno ⟨a, hat, hke⟩
    unfold tickEntry at hleft
    by_cases hexp : s.hasExpired (s.entry a) = true
    · rw [if_pos hexp] at hleft
      by_cases hzero : (s.entry a).useCount - 1 = 0
      · exact ⟨hexp, (hone _).mp hzero⟩
      · rw [if_neg hzero] at hleft
        exact absurd hk (hleft { s.entry a with useCount := (s.entry a).useCount - 1 } rfl)
    · rw [if_neg hexp] at hleft
      exact absurd hk (hleft _ rfl)
  · intro hall
    refine ⟨t, ht, ?_⟩
    rintro ⟨a, hat, hk⟩
    have hrec := hrecord a
    rw [record_eq_some.mpr ⟨hat, rfl⟩] at hrec
    obtain ⟨e, he, htick⟩ := Option.bind_eq_some_iff.mp hrec.symm
    obtain ⟨ha, rfl⟩ := record_eq_some.mp he
    unfold tickEntry at htick
    split_ifs at htick with hexp hzero
    · have hk' : (s.entry a).networkAddr = key := by
        rw [← hk, ← Option.some.inj htick]
      exact hzero ((hone _).mpr (hall a ha hk').2)
    · have hk' : (s.entry a).networkAddr = key := by
        rw [← hk, ← Option.some.inj htick]
      exact hexp (hall a ha hk').1

/-- A visit of the only record with an address, if it has expired. -/
theorem answers_dbExpire (h : Inv s C) (ht : s.dbExpire = some t)
    (hexp : ∀ a ∈ s.used, (s.entry a).networkAddr = key → s.hasExpired (s.entry a) = true) (n : ℕ) :
    t.Answers key n ↔ s.Answers key (n + 1) := by
  obtain ⟨hrecord, -, -⟩ := record_dbExpire h ht
  have hcount : ∀ c : BitVec 32, c ≠ 0 → (c - 1).toNat + 1 = c.toNat := by
    intro c hc
    have hpos : c.toNat ≠ 0 := fun h0 => hc (BitVec.eq_of_toNat_eq h0)
    have hone : (1 : BitVec 32).toNat = 1 := rfl
    have := c.isLt
    rw [BitVec.toNat_sub, hone]
    omega
  constructor
  · rintro ⟨a, e, he, hk, hn⟩
    rw [hrecord] at he
    obtain ⟨e', he', htick⟩ := Option.bind_eq_some_iff.mp he
    obtain ⟨ha, rfl⟩ := record_eq_some.mp he'
    unfold tickEntry at htick
    split_ifs at htick with hold hzero
    · cases htick
      refine ⟨a, _, he', hk, ?_⟩
      have := hcount _ hzero
      dsimp only at hn
      omega
    · cases htick
      exact absurd (hexp a ha hk) hold
  · rintro ⟨a, e, he, hk, hn⟩
    obtain ⟨ha, rfl⟩ := record_eq_some.mp he
    have hzero : (s.entry a).useCount - 1 ≠ 0 := by
      intro h0
      rw [h0] at hn
      exact absurd hn (by simp)
    refine ⟨a, { s.entry a with useCount := (s.entry a).useCount - 1 }, ?_, hk, ?_⟩
    · rw [hrecord, he, Option.bind_some, tickEntry, if_pos (hexp a ha hk), if_neg hzero]
    · have := hcount _ hzero
      dsimp only
      omega

end Nat25

/-! ## The clock -/

/-- The database with the time since it was set up, in ticks, and the time of the last insert of
each address. -/
structure AgedDb extends Nat25 where
  now : ℕ
  inserted : NetAddr → Option ℕ

/-- What happens to the database, and `wait` for the time that passes. -/
inductive AgedEvent where
  | insert (mac : MacAddr) (key : NetAddr) (mem : Option DbAddr)
  | lookup (key : NetAddr)
  | expire
  | wait (ticks : ℕ)

namespace AgedDb

open Nat25

variable {s t u : AgedDb} {key : NetAddr} {T : ℕ}

/-- The empty database. -/
def start (s : Nat25) : AgedDb := ⟨s.init, 0, fun _ => none⟩

/-- The event in the database. -/
def dbEvent (s : AgedDb) : AgedEvent → DbEvent
  | .insert mac key mem => .insert mac key mem
  | .lookup key => .lookup key
  | .expire => .expire
  | .wait n => .clock (s.jiffies + BitVec.ofNat 64 n)

/-- The time that an event takes. -/
def ticksOf : AgedEvent → ℕ
  | .wait n => n
  | _ => 0

/-- The time of the last insert after an event. -/
def insertedBy (s : AgedDb) : AgedEvent → NetAddr → Option ℕ
  | .insert _ key _ => Function.update s.inserted key (some s.now)
  | _ => s.inserted

/-- One event. -/
def agedStep (s : AgedDb) (e : AgedEvent) : Option AgedDb :=
  (s.dbStep (s.dbEvent e)).map fun t => ⟨t, s.now + ticksOf e, s.insertedBy e⟩

/-- The records are as old as the last insert of their address. -/
structure AgedInv (s : AgedDb) : Prop where
  inv : ∃ C, Inv s.toNat25 C
  timer : ∀ a e, s.record a = some e → ∃ T ≤ s.now, s.inserted e.networkAddr = some T ∧
    s.jiffies - e.ageingTimer = BitVec.ofNat 64 (s.now - T)

/-- The number of calls of `nat25_db_expire`. -/
def expiries (es : List AgedEvent) : ℕ :=
  es.countP fun
    | .expire => true
    | _ => false

/-- The time that passes. -/
def duration (es : List AgedEvent) : ℕ := (es.map ticksOf).sum

/-- The event inserts the address. -/
def Inserts (key : NetAddr) : AgedEvent → Prop
  | .insert _ key' _ => key' = key
  | _ => False

/-- What an event does to the records. -/
theorem agedStep_eq_some {e : AgedEvent} : s.agedStep e = some t ↔
    ∃ v, s.dbStep (s.dbEvent e) = some v ∧ t = ⟨v, s.now + ticksOf e, s.insertedBy e⟩ := by
  unfold agedStep
  rw [Option.map_eq_some_iff]
  exact exists_congr fun v => and_congr_right fun _ => eq_comm

theorem agedInv_start (s : Nat25) : AgedInv (start s) := by
  refine ⟨⟨_, inv_init s⟩, fun a e he => ?_⟩
  obtain ⟨ha, -⟩ := record_eq_some.mp he
  exact absurd ha List.not_mem_nil

/-- One event. -/
theorem agedInv_agedStep (h : AgedInv s) (e : AgedEvent) :
    ∃ t, s.agedStep e = some t ∧ AgedInv t := by
  obtain ⟨C, hinv⟩ := h.inv
  obtain ⟨v, C', hv, hinv'⟩ := inv_dbStep hinv (s.dbEvent e)
  refine ⟨_, agedStep_eq_some.mpr ⟨v, hv, rfl⟩, ⟨C', hinv'⟩, fun a r hr => ?_⟩
  -- a record that was there before and is as old as it was
  have hold : ∀ r', s.record a = some r' → r'.networkAddr = r.networkAddr →
    r'.ageingTimer = r.ageingTimer →
      ∃ T ≤ s.now, s.inserted r.networkAddr = some T ∧
        s.jiffies - r.ageingTimer = BitVec.ofNat 64 (s.now - T) := by
    intro r' hr' haddr htimer
    obtain ⟨T, hT, hins, hage⟩ := h.timer a r' hr'
    exact ⟨T, hT, haddr ▸ hins, htimer ▸ hage⟩
  cases e with
  | insert mac key mem =>
    obtain ⟨hj, -⟩ := networkInsert_frame hv
    rcases (hinv.record_networkInsert hv).1 a r hr with ⟨hk, htimer⟩ | ⟨hsame, hne⟩
    · refine ⟨s.now, le_rfl, ?_, ?_⟩
      · rw [hk]
        exact Function.update_self ..
      · dsimp only
        rw [hj, htimer, BitVec.sub_self]
        simp [ticksOf]
    · obtain ⟨T, hT, hins, hage⟩ := hold r hsame rfl rfl
      refine ⟨T, hT, ?_, ?_⟩
      · rw [← hins]
        exact Function.update_of_ne hne ..
      · dsimp only
        rw [hj, hage]
        rfl
  | lookup key =>
    obtain ⟨r', hr', rfl⟩ := Option.map_eq_some_iff.mp hv
    have hj : r'.2.2.jiffies = s.jiffies := by
      obtain hs | ⟨b, hs⟩ := networkLookupAndReplace_frame hr'
      · rw [hs]
      · rw [hs]
        rfl
    have hrec : r'.2.2.record a = some r := hr
    rw [hinv.record_lookup hr'] at hrec
    obtain ⟨r₀, hr₀, rfl⟩ := Option.map_eq_some_iff.mp hrec
    dsimp only
    rw [hj]
    split_ifs at hold ⊢
    · exact hold r₀ hr₀ rfl rfl
    · exact hold r₀ hr₀ rfl rfl
  | expire =>
    obtain ⟨hrecord, hj, -⟩ := record_dbExpire hinv hv
    have hrec : v.record a = some r := hr
    rw [hrecord] at hrec
    obtain ⟨r₀, hr₀, htick⟩ := Option.bind_eq_some_iff.mp hrec
    dsimp only
    rw [hj]
    unfold tickEntry at htick
    split_ifs at htick
    · obtain rfl := Option.some.inj htick
      exact hold r₀ hr₀ rfl rfl
    · obtain rfl := Option.some.inj htick
      exact hold r₀ hr₀ rfl rfl
  | wait n =>
    obtain rfl := Option.some.inj hv
    obtain ⟨T, hT, hins, hage⟩ := hold r hr rfl rfl
    refine ⟨T, hT.trans (Nat.le_add_right ..), hins, ?_⟩
    have hsplit : s.now + n - T = (s.now - T) + n := by omega
    dsimp only [ticksOf]
    rw [hsplit, BitVec.ofNat_add, ← hage]
    grind

/-- A record that was inserted long enough ago has expired, unless the clock came round since. -/
theorem hasExpired_iff (h : AgedInv s) {a : DbAddr} (ha : a ∈ s.used)
    (hT : s.inserted (s.entry a).networkAddr = some T)
    (hold : T + s.ageing ≤ s.now) :
    s.hasExpired (s.entry a) = true ↔ (s.now - T - s.ageing) % 2 ^ 64 < 2 ^ 63 := by
  obtain ⟨T', -, hT', hage⟩ := h.timer a (s.entry a) (record_eq_some.mpr ⟨ha, rfl⟩)
  rw [hT] at hT'
  cases hT'
  have hsub : s.timeout - (s.entry a).ageingTimer = BitVec.ofNat 64 (s.now - T - s.ageing) := by
    have hshift : s.timeout - (s.entry a).ageingTimer =
      (s.jiffies - (s.entry a).ageingTimer) - 300 * s.hz := by
      unfold timeout
      grind
    have hlen : s.now - T = (s.now - T - s.ageing) + s.ageing := by omega
    have hround : BitVec.ofNat 64 s.ageing = 300 * s.hz := by
      rw [Nat25.ageing, BitVec.ofNat_toNat, BitVec.setWidth_eq]
    rw [hshift, hage, hlen, BitVec.ofNat_add, hround]
    grind
  unfold hasExpired
  rw [hsub, decide_eq_true_eq, BitVec.toInt_eq_toNat_cond, BitVec.toNat_ofNat]
  split_ifs
  all_goals omega

/-! ## Runs -/

theorem agedStep_frame {e : AgedEvent} (ht : s.agedStep e = some t) (he : ¬Inserts key e) :
    t.now = s.now + ticksOf e ∧ t.inserted key = s.inserted key := by
  obtain ⟨v, -, rfl⟩ := agedStep_eq_some.mp ht
  refine ⟨rfl, ?_⟩
  cases e with
  | insert mac key' mem => exact Function.update_of_ne (fun hk => he hk.symm) ..
  | lookup key' => rfl
  | expire => rfl
  | wait n => rfl

theorem ageing_agedStep (h : AgedInv s) {e : AgedEvent} (ht : s.agedStep e = some t) :
    t.ageing = s.ageing := by
  obtain ⟨C, hinv⟩ := h.inv
  obtain ⟨v, hv, rfl⟩ := agedStep_eq_some.mp ht
  have hz : v.hz = s.hz := by
    cases e with
    | insert mac key mem => exact (networkInsert_frame hv).2.1
    | lookup key =>
      obtain ⟨r, hr, rfl⟩ := Option.map_eq_some_iff.mp hv
      obtain hs | ⟨b, hs⟩ := networkLookupAndReplace_frame hr
      · rw [hs]
      · rw [hs]
        rfl
    | expire => exact (record_dbExpire hinv hv).2.2
    | wait n =>
      cases hv
      rfl
  unfold Nat25.ageing
  dsimp only
  rw [hz]

/-- An old record is changed by nothing but a visit and an insert of its address. -/
theorem answers_agedStep (h : AgedInv s) {e : AgedEvent} (ht : s.agedStep e = some t)
    (he : ¬Inserts key e)
    (hexp : ∀ a ∈ s.used, (s.entry a).networkAddr = key → s.hasExpired (s.entry a) = true) (n : ℕ) :
    t.Answers key n ↔ s.Answers key (n + expiries [e]) := by
  obtain ⟨C, hinv⟩ := h.inv
  obtain ⟨v, hv, rfl⟩ := agedStep_eq_some.mp ht
  -- the records with the address are the same
  have hsame : (∀ a r, r.networkAddr = key → (v.record a = some r ↔ s.record a = some r)) →
      (v.Answers key n ↔ s.Answers key n) := by
    intro hrec
    refine exists_congr fun a => exists_congr fun r => ?_
    constructor
    · rintro ⟨hr, hk, hn⟩
      exact ⟨(hrec a r hk).mp hr, hk, hn⟩
    · rintro ⟨hr, hk, hn⟩
      exact ⟨(hrec a r hk).mpr hr, hk, hn⟩
  cases e with
  | insert mac key' mem =>
    obtain ⟨hnew, hkeep⟩ := hinv.record_networkInsert hv
    refine hsame fun a r hk =>
      ⟨fun hr => ?_, fun hr => hkeep a r hr fun hk' => he (hk'.symm.trans hk)⟩
    rcases hnew a r hr with ⟨hk', -⟩ | ⟨hr', -⟩
    · exact absurd (hk'.symm.trans hk) he
    · exact hr'
  | lookup key' =>
    obtain ⟨r', hr', rfl⟩ := Option.map_eq_some_iff.mp hv
    -- a record that has expired is not counted
    have hkeep : ∀ a r, s.record a = some r → r.networkAddr = key → r'.2.2.record a = some r := by
      intro a r hr hk
      obtain ⟨ha, rfl⟩ := record_eq_some.mp hr
      rw [hinv.record_lookup hr', hr, Option.map_some, if_neg]
      rintro ⟨-, hno⟩
      rw [hexp a ha hk] at hno
      cases hno
    refine hsame fun a r hk => ⟨fun hr => ?_, fun hr => hkeep a r hr hk⟩
    have hrec := hr
    rw [hinv.record_lookup hr'] at hrec
    obtain ⟨r₀, hr₀, hcount⟩ := Option.map_eq_some_iff.mp hrec
    have hk₀ : r₀.networkAddr = key := by
      rw [← hk, ← hcount]
      split_ifs
      · rfl
      · rfl
    have := hkeep a r₀ hr₀ hk₀
    rw [hr] at this
    exact this ▸ hr₀
  | expire => exact answers_dbExpire hinv hv hexp n
  | wait m =>
    cases hv
    exact hsame fun a r _ => Iff.rfl

/-- How long an old record answers : until it was visited as often as its use count says. -/
theorem linked_iff_of_ticks : ∀ (es : List AgedEvent) {s u : AgedDb}, AgedInv s →
    s.inserted key = some T →
    T + s.ageing ≤ s.now → s.now + duration es < T + s.ageing + 2 ^ 63 →
      (∀ e ∈ es, ¬Inserts key e) →
    runM agedStep s es = some u → (u.Linked key ↔ s.Answers key (expiries es))
  | [], s, u, _, _, _, _, _, hrun => by
    cases hrun
    exact linked_iff_answers
  | e :: es, s, u, h, hT, hold, hnow, hes, hrun => by
    obtain ⟨he, hes⟩ := List.forall_mem_cons.mp hes
    obtain ⟨t, ht, hrun⟩ := runM_cons.mp hrun
    obtain ⟨t', ht', htinv⟩ := agedInv_agedStep h e
    rw [ht] at ht'
    cases ht'
    obtain ⟨htnow, hins⟩ := agedStep_frame ht he
    have hage := ageing_agedStep h ht
    rw [duration, List.map_cons, List.sum_cons] at hnow
    have hrest : u.Linked key ↔ t.Answers key (expiries es) := by
      refine linked_iff_of_ticks es htinv (hins.trans hT) (by omega) ?_ hes hrun
      rw [duration]
      omega
    have hexp : ∀ a ∈ s.used, (s.entry a).networkAddr = key → s.hasExpired (s.entry a) = true := by
      intro a ha hk
      exact (hasExpired_iff h ha (hk ▸ hT) hold).mpr (by omega)
    have hcount : expiries (e :: es) = expiries es + expiries [e] := by
      unfold expiries
      rw [List.countP_cons, List.countP_singleton]
    rw [hrest, answers_agedStep h ht he hexp, hcount]

/-- After every run an address that was never inserted has no record. For one that was inserted long
enough ago a lookup is as for such an address exactly when the record is not linked, the next
`nat25_db_expire` takes the record out exactly when its use count is one and the clock has not come
round, and until the next insert the record answers exactly as long as the calls of
`nat25_db_expire` are not as many as its use count. -/
theorem expiry_iff (db : Nat25) (es : List AgedEvent) :
    ∃ s, runM agedStep (start db) es = some s ∧ ∀ key,
    (s.inserted key = none → s.AsAbsent key) ∧
    ∀ T, s.inserted key = some T → T + s.ageing ≤ s.now →
      (s.AsAbsent key ↔ ¬s.Linked key) ∧
      (s.Unlinks key ↔ ∀ a ∈ s.used, (s.entry a).networkAddr = key →
        (s.entry a).useCount = 1 ∧ (s.now - T - s.ageing) % 2 ^ 64 < 2 ^ 63) ∧
      ∀ fs u, (∀ e ∈ fs, ¬Inserts key e) → s.now + duration fs < T + s.ageing + 2 ^ 63 →
        runM agedStep s fs = some u → (u.AsAbsent key ↔ ¬s.Answers key (expiries fs)) := by
  obtain ⟨s, hrun, h⟩ := exists_runM (fun _ e hu => agedInv_agedStep hu e) es (agedInv_start db)
  obtain ⟨C, hinv⟩ := h.inv
  refine ⟨s, hrun, fun key => ⟨fun hnone => ?_, fun T hT hold => ⟨hinv.asAbsent_iff, ?_, ?_⟩⟩⟩
  · rw [hinv.asAbsent_iff]
    rintro ⟨a, ha, rfl⟩
    obtain ⟨T, -, hT, -⟩ := h.timer a _ (record_eq_some.mpr ⟨ha, rfl⟩)
    rw [hnone] at hT
    cases hT
  · rw [hinv.unlinks_iff]
    refine forall₃_congr fun a ha hk => ?_
    rw [hasExpired_iff h ha (hk ▸ hT) hold, and_comm]
  · intro fs u hfs hnow hrun
    obtain ⟨u', hu', hinv'⟩ := exists_runM (fun _ e hu => agedInv_agedStep hu e) fs h
    rw [hrun] at hu'
    cases hu'
    obtain ⟨C', hC'⟩ := hinv'.inv
    rw [hC'.asAbsent_iff, linked_iff_of_ticks fs h hT hold hnow hfs hrun]

/-- A database with 100 ticks a second. -/
def sampleDb : Nat25 where
  links := ⟨fun _ => none, fun _ => none, fun _ => none⟩
  entry _ := ⟨0, zeroAddr, 0, Vector.replicate 17 0⟩
  used := []
  jiffies := 0
  hz := 100
  scdbMac := zeroAddr
  scdbIp := Vector.replicate 4 0
  scdbEntry := none

def sampleKey : NetAddr := nat25GenerateIpv4NetworkAddr #v[10, 0, 0, 1]

/-- A host is inserted and used once, and 300 seconds pass. -/
def sampleAging : List AgedEvent :=
  [.insert (localAddr 1) sampleKey (some 0), .lookup sampleKey, .wait 30000]

theorem sampleAging_run {s : AgedDb} (hrun : runM agedStep (start sampleDb) sampleAging = some s) :
    s.now = 30000 ∧ s.inserted sampleKey = some 0 ∧ s.ageing = 30000 := by
  have hs : (runM agedStep (start sampleDb) sampleAging).map
    (fun s => (s.now, s.inserted sampleKey, s.ageing)) =
      some (30000, some 0, 30000) := by decide
  rw [hrun, Option.map_some] at hs
  obtain ⟨hnow, hrest⟩ := Prod.mk.inj (Option.some.inj hs)
  exact ⟨hnow, Prod.mk.inj hrest⟩

theorem expiry_iff_sample : ∃ s, runM agedStep (start sampleDb) sampleAging = some s ∧
    (s.AsAbsent sampleKey ↔ ¬s.Linked sampleKey) := by
  obtain ⟨s, hrun, hall⟩ := expiry_iff sampleDb sampleAging
  obtain ⟨hnow, hT, hage⟩ := sampleAging_run hrun
  exact ⟨s, hrun, ((hall sampleKey).2 0 hT (by omega)).1⟩

/-- The lookup still says that there is a record, and the next `nat25_db_expire` does not free
it. -/
theorem not_expiry_sample : ∃ s, runM agedStep (start sampleDb) sampleAging = some s ∧
    s.inserted sampleKey = some 0 ∧ 0 + s.ageing ≤ s.now ∧ ¬s.AsAbsent sampleKey ∧
      ¬s.Unlinks sampleKey := by
  obtain ⟨s, hrun, -⟩ :=
    exists_runM (fun _ e hu => agedInv_agedStep hu e) sampleAging (agedInv_start sampleDb)
  obtain ⟨hnow, hT, hage⟩ := sampleAging_run hrun
  refine ⟨s, hrun, hT, by omega, ?_, ?_⟩
  · rintro ⟨r, hr, hfound, -⟩
    have hlookup : ((runM agedStep (start sampleDb) sampleAging).bind
      fun s => s.networkLookupAndReplace sampleKey).map
        (·.1) = some true := by decide
    rw [hrun, Option.bind_some, hr, Option.map_some, Option.some.injEq, hfound] at hlookup
    cases hlookup
  · rintro ⟨t, ht, hno⟩
    have htick : ((runM agedStep (start sampleDb) sampleAging).bind fun s => s.dbExpire).map
        (fun t => (t.used, (t.entry 0).networkAddr)) = some ([0], sampleKey) := by decide
    rw [hrun, Option.bind_some, ht, Option.map_some] at htick
    obtain ⟨hused, hk⟩ := Prod.mk.inj (Option.some.inj htick)
    exact hno ⟨0, hused ▸ List.mem_singleton_self 0, hk⟩

end AgedDb

end Rtl8188eu
