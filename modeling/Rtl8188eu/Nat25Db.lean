import Rtl8188eu.HashChains
import Rtl8188eu.Runs
import Rtl8188eu.Wifi

/-!
# The NAT2.5 database

The driver can bridge hosts behind a station, which has one address only. It records the network
addresses of the hosts and their Ethernet addresses, and writes the Ethernet address of the host
into what is received for it. The records are chained in a hash table by the network address, with
links to links (`HashChains`), and `scdb_entry` is a shortcut to one of them.

The memory of a record is given out by `rtw_malloc`, and a record that is not in `used` cannot be
read. `Inv` says what the chains are, and `nat25Db_run` that it holds after every run : no chain is
broken, and no pointer to a record is left when the record is freed.
-/

namespace Rtl8188eu

open LiteralIndex

open HashChains Runs

/-- `NAT25_IPV4`. -/
def nat25Ipv4 : UInt8 := 1
/-- `NAT25_IPV6`. -/
def nat25Ipv6 : UInt8 := 2
/-- `NAT25_IPX`. -/
def nat25Ipx : UInt8 := 3
/-- `NAT25_APPLE`. -/
def nat25Apple : UInt8 := 4
/-- `NAT25_PPPOE`. -/
def nat25Pppoe : UInt8 := 5

/-- A network address with its type (`MAX_NETWORK_ADDR_LEN` bytes). -/
abbrev NetAddr := Vector UInt8 17

/-- An IPv4 address, as it stands in a frame. -/
abbrev IpAddr := Vector UInt8 4

/-- The exclusive or of the bytes from `lo` to `hi`. -/
def xorBytes (a : NetAddr) (lo hi : ℕ) : UInt8 :=
  ((a.toList.take (hi + 1)).drop lo).foldl (· ^^^ ·) 0

/-- `__nat25_network_hash`. -/
def nat25NetworkHash (a : NetAddr) : Fin 16 :=
  let x :=
    if a[0] = nat25Ipv4 then xorBytes a 7 10
    else if a[0] = nat25Ipx then xorBytes a 1 10
    else if a[0] = nat25Apple then xorBytes a 1 3
    else if a[0] = nat25Pppoe then xorBytes a 0 8
    else if a[0] = nat25Ipv6 then xorBytes a 1 16
    else xorBytes a 0 16
  Fin.ofNat 16 x.toNat

/-- `__nat25_generate_ipv4_network_addr`, for the four bytes at `ipAddr`. -/
def nat25GenerateIpv4NetworkAddr (ip : IpAddr) : NetAddr :=
  #v[nat25Ipv4, 0, 0, 0, 0, 0, 0, getElem ip 0 octet0_lt_four, getElem ip 1 octet1_lt_four,
    getElem ip 2 octet2_lt_four, getElem ip 3 octet3_lt_four, 0, 0, 0, 0, 0, 0]

/-- Where a record is. -/
abbrev DbAddr := ℕ

/-- `struct nat25_network_db_entry` without its links. -/
structure Nat25Entry where
  useCount : BitVec 32
  macAddr : MacAddr
  ageingTimer : BitVec 64
  networkAddr : NetAddr

/-- The part of `struct adapter` about the bridged hosts. -/
structure Nat25 where
  /-- `nethash`, and the links of the records. -/
  links : Table (Fin 16) DbAddr
  entry : DbAddr → Nat25Entry
  /-- The memory that `rtw_malloc` has given out. -/
  used : List DbAddr
  jiffies : BitVec 64
  hz : BitVec 64
  scdbMac : MacAddr
  scdbIp : IpAddr
  scdbEntry : Option DbAddr

namespace Nat25

/-- A driver is allocated with zeros. -/
def init (s : Nat25) : Nat25 :=
  { s with
    links := { s.links with head := fun _ => none }
    used := []
    scdbMac := zeroAddr
    scdbIp := Vector.replicate 4 0
    scdbEntry := none }

/-- `__nat25_timeout`. -/
def timeout (s : Nat25) : BitVec 64 := s.jiffies - 300 * s.hz

/-- `__nat25_has_expired`. -/
def hasExpired (s : Nat25) (e : Nat25Entry) : Bool := 0 ≤ (s.timeout - e.ageingTimer).toInt

/-- A record is changed. -/
def updateEntry (s : Nat25) (a : DbAddr) (f : Nat25Entry → Nat25Entry) : Nat25 :=
  { s with entry := Function.update s.entry a (f (s.entry a)) }

/-- The loop that looks for a record with the address `key`. -/
def dbFind (s : Nat25) (key : NetAddr) : ℕ → Option DbAddr → Option (Option DbAddr)
  | _, none => some none
  | 0, some _ => none
  | fuel + 1, some a =>
    if a ∈ s.used then
      if (s.entry a).networkAddr = key then some (some a) else s.dbFind key fuel (s.links.next a)
    else none

/-- The record with the address `key`. A chain is not longer than the number of records. -/
def findEntry (s : Nat25) (key : NetAddr) : Option (Option DbAddr) :=
  s.dbFind key s.used.length (s.links.head (nat25NetworkHash key))

/-- `__nat25_db_network_lookup_and_replace` : whether there is a record, and the address that is
written into the frame, if the record has not expired. -/
def networkLookupAndReplace (s : Nat25) (key : NetAddr) : Option (Bool × Option MacAddr × Nat25) :=
  (s.findEntry key).map fun
    | none => (false, none, s)
    | some a =>
      if s.hasExpired (s.entry a) then (true, none, s)
      else (true, some (s.entry a).macAddr, s.updateEntry a fun e => { e with useCount := e.useCount + 1 })

/-- `rtw_malloc`. The allocator chooses `mem`, which is not in use, or fails. -/
def rtwMalloc (s : Nat25) (mem : Option DbAddr) : Option DbAddr := mem.filter fun a => a ∉ s.used

/-- A new record at `a`. -/
def linkEntry (s : Nat25) (a : DbAddr) (mac : MacAddr) (key : NetAddr) : Nat25 :=
  { s with
    used := a :: s.used
    entry := Function.update s.entry a ⟨1, mac, s.jiffies, key⟩
    links := s.links.link a (nat25NetworkHash key) }

/-- `__nat25_db_network_insert`. -/
def networkInsert (s : Nat25) (mac : MacAddr) (key : NetAddr) (mem : Option DbAddr) : Option Nat25 :=
  (s.findEntry key).map fun
    | some a => s.updateEntry a fun e => { e with macAddr := mac, ageingTimer := s.jiffies }
    | none =>
      match s.rtwMalloc mem with
      | none => s
      | some a => s.linkEntry a mac key

/-- The shortcut to a record is forgotten. -/
def scdbForget (s : Nat25) (f : DbAddr) : Nat25 :=
  if s.scdbEntry = some f then
    { s with scdbMac := zeroAddr, scdbIp := Vector.replicate 4 0, scdbEntry := none }
  else s

/-- A record is forgotten by the shortcut, unlinked and freed. -/
def freeEntry (s : Nat25) (f : DbAddr) : Option Nat25 :=
  let s := s.scdbForget f
  (s.links.unlink f).map fun links => { s with links := links, used := s.used.filter (· ≠ f) }

/-- The body of the loop of `nat25_db_expire`. -/
def expireEntry (s : Nat25) (f : DbAddr) : Option Nat25 :=
  if s.hasExpired (s.entry f) then
    let s := s.updateEntry f fun e => { e with useCount := e.useCount - 1 }
    if (s.entry f).useCount = 0 then s.freeEntry f else some s
  else some s

/-- The loop over a chain. The next record is read before the body. -/
def chainLoop (body : Nat25 → DbAddr → Option Nat25) : ℕ → Option DbAddr → Nat25 → Option Nat25
  | _, none, s => some s
  | 0, some _, _ => none
  | fuel + 1, some f, s =>
    if f ∈ s.used then
      let g := s.links.next f
      (body s f).bind fun s => chainLoop body fuel g s
    else none

/-- The loop over the table. -/
def tableLoop (body : Nat25 → DbAddr → Option Nat25) (s : Nat25) : Option Nat25 :=
  (List.finRange 16).foldlM (fun s i => chainLoop body s.used.length (s.links.head i) s) s

/-- `nat25_db_cleanup`. -/
def dbCleanup (s : Nat25) : Option Nat25 := tableLoop freeEntry s

/-- `nat25_db_expire`. -/
def dbExpire (s : Nat25) : Option Nat25 := tableLoop expireEntry s

/-- `scdb_findEntry`. -/
def scdbFindEntry (s : Nat25) (ip : IpAddr) : Option (Option DbAddr) :=
  s.findEntry (nat25GenerateIpv4NetworkAddr ip)

/-- The record of the shortcut is not old. -/
def scdbTouch (s : Nat25) (a : DbAddr) : Option Nat25 :=
  if a ∈ s.used then some (s.updateEntry a fun e => { e with ageingTimer := s.jiffies }) else none

/-- The part of `rtw_br_client_tx` about the shortcut, for an IP frame : whether the frame still
goes to `nat25_db_handle`. -/
def scdbTx (s : Nat25) (mac : MacAddr) (ip : IpAddr) : Option (Bool × Nat25) :=
  if s.scdbMac ≠ mac then
    (s.scdbFindEntry ip).bind fun
      | some a =>
        ({ s with scdbEntry := some a, scdbMac := mac, scdbIp := ip }.scdbTouch a).map fun s => (false, s)
      | none => some (true, { s with scdbEntry := none })
  else
    match s.scdbEntry with
    | some a => (s.scdbTouch a).map fun s => (false, s)
    | none => some (true, { s with scdbMac := zeroAddr, scdbIp := Vector.replicate 4 0 })

/-! ## The chains -/

/-- The chains are `C`, the records in them are the ones that are not freed, each of them is in the
chain of its address, no address is twice in the table, and the shortcut is to a record. -/
structure Inv (s : Nat25) (C : Fin 16 → List DbAddr) : Prop where
  chains : Chains s.links C
  used : ∀ a, a ∈ s.used ↔ ∃ i, a ∈ C i
  nodup : s.used.Nodup
  bucket : ∀ i, ∀ a ∈ C i, nat25NetworkHash (s.entry a).networkAddr = i
  unique : ∀ i j, ∀ a ∈ C i, ∀ b ∈ C j, (s.entry a).networkAddr = (s.entry b).networkAddr → a = b
  scdb : ∀ a, s.scdbEntry = some a → ∃ i, a ∈ C i

variable {s t : Nat25} {C : Fin 16 → List DbAddr} {key : NetAddr} {mac : MacAddr} {a : DbAddr}
  {i : Fin 16}

theorem inv_init (s : Nat25) : Inv s.init fun _ => [] := by
  refine ⟨⟨fun i => rfl, fun _ => List.nodup_nil, ?_⟩, fun a => ?_, List.nodup_nil, ?_, ?_, ?_⟩
  · intro i j a ha
    exact absurd ha List.not_mem_nil
  · simp [init]
  · simp
  · simp
  · simp [init]

namespace Inv

theorem length_le (h : Inv s C) (i : Fin 16) : (C i).length ≤ s.used.length := by
  refine (List.subperm_of_subset (h.chains.nodup i) fun a ha => ?_).length_le
  exact (h.used a).mpr ⟨i, ha⟩

theorem mem_used (h : Inv s C) (ha : a ∈ C i) : a ∈ s.used := (h.used a).mpr ⟨i, ha⟩

/-- A loop along the end of a chain finds the record in it. -/
theorem dbFind (h : Inv s C) : ∀ (pre post : List DbAddr) {fuel : ℕ}, C i = pre ++ post →
    post.length ≤ fuel → s.dbFind key fuel post.head? =
      some (post.find? fun a => decide ((s.entry a).networkAddr = key))
  | _, [], fuel, _, _ => by cases fuel <;> rfl
  | pre, a :: post, 0, _, hlen => absurd hlen (by simp)
  | pre, a :: post, fuel + 1, hC, hlen => by
    have ha : a ∈ s.used := h.mem_used (i := i) (by simp [hC])
    rw [List.head?_cons, Nat25.dbFind, if_pos ha, List.find?_cons]
    by_cases hk : (s.entry a).networkAddr = key
    · rw [if_pos hk, decide_eq_true hk]
    · rw [if_neg hk, decide_eq_false hk]
      have hchain := h.chains.chain i
      rw [hC] at hchain
      rw [hchain.next_eq]
      exact h.dbFind (pre ++ [a]) post (by simp [hC]) (by simpa using hlen)

/-- The search for a record ends. -/
theorem findEntry (h : Inv s C) (key : NetAddr) : s.findEntry key =
    some ((C (nat25NetworkHash key)).find? fun a => decide ((s.entry a).networkAddr = key)) := by
  rw [Nat25.findEntry, h.chains.head]
  exact h.dbFind [] _ rfl (h.length_le _)

/-- The search finds the record with the address. -/
theorem findEntry_eq_some (h : Inv s C) : s.findEntry key = some (some a) ↔
    (∃ i, a ∈ C i) ∧ (s.entry a).networkAddr = key := by
  rw [h.findEntry, Option.some.injEq]
  constructor
  · intro hf
    exact ⟨⟨_, List.mem_of_find?_eq_some hf⟩, by simpa using List.find?_some hf⟩
  · rintro ⟨⟨i, ha⟩, hk⟩
    have hi : nat25NetworkHash key = i := by rw [← hk, h.bucket i a ha]
    rw [hi]
    cases hf : (C i).find? fun a => decide ((s.entry a).networkAddr = key) with
    | none => exact absurd hk (by simpa using List.find?_eq_none.mp hf a ha)
    | some b =>
      have hb : (s.entry b).networkAddr = key := by simpa using List.find?_some hf
      rw [h.unique i i a ha b (List.mem_of_find?_eq_some hf) (hk.trans hb.symm)]

theorem findEntry_eq_none (h : Inv s C) : s.findEntry key = some none ↔
    ∀ i, ∀ a ∈ C i, (s.entry a).networkAddr ≠ key := by
  constructor
  · intro hf i a ha hk
    rw [h.findEntry_eq_some.mpr ⟨⟨i, ha⟩, hk⟩] at hf
    cases hf
  · intro hno
    rw [h.findEntry, Option.some.injEq, List.find?_eq_none]
    intro a ha
    simpa using hno _ a ha

/-! ## What the operations do to the chains -/

/-- A record is changed, but not its address. -/
theorem updateEntry (h : Inv s C) {f : Nat25Entry → Nat25Entry}
    (hf : ∀ e, (f e).networkAddr = e.networkAddr) : Inv (s.updateEntry a f) C := by
  have hkey : ∀ b, ((s.updateEntry a f).entry b).networkAddr = (s.entry b).networkAddr := by
    intro b
    rcases eq_or_ne b a with rfl | hb
    · simp [Nat25.updateEntry, hf]
    · simp [Nat25.updateEntry, hb]
  refine ⟨h.chains, h.used, h.nodup, fun i b hb => ?_, fun i j b hb c hc he => ?_, h.scdb⟩
  · rw [hkey, h.bucket i b hb]
  · rw [hkey, hkey] at he
    exact h.unique i j b hb c hc he

theorem networkLookupAndReplace (h : Inv s C) (key : NetAddr) :
    ∃ r, s.networkLookupAndReplace key = some r ∧ Inv r.2.2 C := by
  rw [Nat25.networkLookupAndReplace, h.findEntry, Option.map_some]
  refine ⟨_, rfl, ?_⟩
  split
  · exact h
  split
  · exact h
  · exact h.updateEntry (f := fun e => { e with useCount := e.useCount + 1 }) fun _ => rfl

theorem linkEntry (h : Inv s C) (ha : a ∉ s.used)
    (hno : ∀ i, ∀ a ∈ C i, (s.entry a).networkAddr ≠ key) :
    Inv (s.linkEntry a mac key)
      (Function.update C (nat25NetworkHash key) (a :: C (nat25NetworkHash key))) := by
  have hnew : ∀ j, a ∉ C j := fun j hj => ha (h.mem_used hj)
  have hself : ((s.linkEntry a mac key).entry a).networkAddr = key := by
    simp [Nat25.linkEntry]
  have hold : ∀ j, ∀ b ∈ C j, (s.linkEntry a mac key).entry b = s.entry b := fun j b hb =>
    Function.update_of_ne (ne_of_mem_of_not_mem hb (hnew j)) ..
  refine ⟨h.chains.link hnew, fun b => ?_, List.nodup_cons.mpr ⟨ha, h.nodup⟩, fun j b hb => ?_,
    fun j k b hb c hc he => ?_, fun b hb => ?_⟩
  · have hused : (s.linkEntry a mac key).used = a :: s.used := rfl
    simp only [hused, List.mem_cons, mem_update_cons, h.used]
    constructor
    · rintro (rfl | ⟨j, hj⟩)
      · exact ⟨_, Or.inl ⟨rfl, rfl⟩⟩
      · exact ⟨j, Or.inr hj⟩
    · rintro ⟨j, ⟨rfl, -⟩ | hj⟩
      · exact Or.inl rfl
      · exact Or.inr ⟨j, hj⟩
  · rcases mem_update_cons.mp hb with ⟨rfl, rfl⟩ | hb
    · rw [hself]
    · rw [hold j b hb, h.bucket j b hb]
  · rcases mem_update_cons.mp hb with ⟨hba, -⟩ | hbj
    · rcases mem_update_cons.mp hc with ⟨hca, -⟩ | hck
      · rw [hba, hca]
      · rw [hba, hself, hold k c hck] at he
        exact absurd he.symm (hno k c hck)
    · rcases mem_update_cons.mp hc with ⟨hca, -⟩ | hck
      · rw [hca, hself, hold j b hbj] at he
        exact absurd he (hno j b hbj)
      · rw [hold j b hbj, hold k c hck] at he
        exact h.unique j k b hbj c hck he
  · obtain ⟨j, hj⟩ := h.scdb b hb
    exact ⟨j, mem_update_cons.mpr (Or.inr hj)⟩

theorem networkInsert (h : Inv s C) (mac : MacAddr) (key : NetAddr) (mem : Option DbAddr) :
    ∃ t C', s.networkInsert mac key mem = some t ∧ Inv t C' := by
  rw [Nat25.networkInsert]
  cases hf : (C (nat25NetworkHash key)).find? fun a => decide ((s.entry a).networkAddr = key) with
  | some a =>
    rw [h.findEntry, hf]
    exact ⟨_, C, rfl, h.updateEntry fun _ => rfl⟩
  | none =>
    have hno := h.findEntry_eq_none.mp (by rw [h.findEntry, hf])
    rw [h.findEntry, hf, Option.map_some]
    cases hm : s.rtwMalloc mem with
    | none => exact ⟨s, C, rfl, h⟩
    | some a =>
      have ha : a ∉ s.used := by simpa using (Option.filter_eq_some_iff.mp hm).2
      exact ⟨_, _, rfl, h.linkEntry ha hno⟩

theorem scdbForget_spec (s : Nat25) (a : DbAddr) :
    (s.scdbForget a).links = s.links ∧ (s.scdbForget a).used = s.used ∧
      (s.scdbForget a).entry = s.entry ∧
      ∀ b, (s.scdbForget a).scdbEntry = some b → s.scdbEntry = some b ∧ b ≠ a := by
  unfold scdbForget
  split
  · exact ⟨rfl, rfl, rfl, nofun⟩
  · rename_i hs
    refine ⟨rfl, rfl, rfl, fun b hb => ⟨hb, ?_⟩⟩
    rintro rfl
    exact hs hb

theorem freeEntry (h : Inv s C) {pre post : List DbAddr} (hC : C i = pre ++ a :: post) :
    ∃ t, s.freeEntry a = some t ∧ Inv t (Function.update C i (pre ++ post)) := by
  unfold Nat25.freeEntry
  extract_lets u
  obtain ⟨hlinks, hused, hentry, hscdb⟩ : u.links = s.links ∧ u.used = s.used ∧ u.entry = s.entry ∧
      ∀ b, u.scdbEntry = some b → s.scdbEntry = some b ∧ b ≠ a := scdbForget_spec s a
  clear_value u
  obtain ⟨links, hunlink, hchains⟩ := h.chains.unlink hC
  rw [hlinks, hunlink]
  have hmem : ∀ {j b}, b ∈ Function.update C i (pre ++ post) j ↔ b ∈ C j ∧ b ≠ a :=
    h.chains.mem_update hC
  refine ⟨_, rfl, hchains,
    fun b => ?_, ?_, fun j b hb => ?_, fun j k b hb c hc he => ?_, fun b hb => ?_⟩
  · simp only [hused, List.mem_filter, h.used, hmem, decide_eq_true_eq]
    exact ⟨fun ⟨⟨j, hj⟩, hne⟩ => ⟨j, hj, hne⟩, fun ⟨j, hj, hne⟩ => ⟨⟨j, hj⟩, hne⟩⟩
  · exact (hused ▸ h.nodup).filter _
  · simp only [hentry]
    exact h.bucket j b (hmem.mp hb).1
  · simp only [hentry] at he
    exact h.unique j k b (hmem.mp hb).1 c (hmem.mp hc).1 he
  · obtain ⟨hb, hne⟩ := hscdb b hb
    obtain ⟨j, hj⟩ := h.scdb b hb
    exact ⟨j, hmem.mpr ⟨hj, hne⟩⟩

end Inv

/-! ## The loops over the table -/

/-- The body of a loop takes the record out of its chain, or leaves the chains alone if it may. -/
def Visits (may : Prop) (body : Nat25 → DbAddr → Option Nat25) : Prop :=
  ∀ {s C i a} {pre post : List DbAddr}, Inv s C → C i = pre ++ a :: post → ∃ t, body s a = some t ∧
    (Inv t (Function.update C i (pre ++ post)) ∨ (may ∧ Inv t C))

variable {may : Prop} {body : Nat25 → DbAddr → Option Nat25}

theorem visits_freeEntry : Visits False freeEntry := fun h hC => by
  obtain ⟨t, ht, hinv⟩ := h.freeEntry hC
  exact ⟨t, ht, Or.inl hinv⟩

theorem visits_expireEntry : Visits True expireEntry := fun {s C i a pre post} h hC => by
  unfold expireEntry
  split
  · have hu : Inv (s.updateEntry a fun e => { e with useCount := e.useCount - 1 }) C :=
      h.updateEntry fun _ => rfl
    dsimp only
    split
    · obtain ⟨t, ht, hinv⟩ := hu.freeEntry hC
      exact ⟨t, ht, Or.inl hinv⟩
    · exact ⟨_, rfl, Or.inr ⟨trivial, hu⟩⟩
  · exact ⟨s, rfl, Or.inr ⟨trivial, h⟩⟩

/-- The loop along the end of a chain keeps some of its records. -/
theorem chainLoop_spec (hb : Visits may body) : ∀ (post pre : List DbAddr) {fuel : ℕ} {s : Nat25}
    {C : Fin 16 → List DbAddr}, Inv s C → C i = pre ++ post → post.length ≤ fuel →
    ∃ t ks, chainLoop body fuel post.head? s = some t ∧ Inv t (Function.update C i (pre ++ ks)) ∧
      (ks = [] ∨ may)
  | [], pre, fuel, s, C, h, hC, _ => by
    refine ⟨s, [], by cases fuel <;> rfl, ?_, Or.inl rfl⟩
    rw [← hC, Function.update_eq_self]
    exact h
  | a :: post, _, 0, _, _, _, _, hlen => absurd hlen (by simp)
  | a :: post, pre, fuel + 1, s, C, h, hC, hlen => by
    have ha : a ∈ s.used := h.mem_used (i := i) (by simp [hC])
    have hchain := h.chains.chain i
    rw [hC] at hchain
    rw [List.head?_cons, chainLoop, if_pos ha, hchain.next_eq]
    obtain ⟨u, hu, hout | ⟨hmay, hin⟩⟩ := hb h hC
    · obtain ⟨t, ks, ht, hinv, hks⟩ := chainLoop_spec hb post pre hout
        (Function.update_self ..) (by simpa using hlen)
      rw [Function.update_idem] at hinv
      exact ⟨t, ks, by simp [hu, ht], hinv, hks⟩
    · obtain ⟨t, ks, ht, hinv, -⟩ := chainLoop_spec hb post (pre ++ [a]) hin
        (by simp [hC]) (by simpa using hlen)
      rw [List.append_assoc] at hinv
      exact ⟨t, [a] ++ ks, by simp [hu, ht], hinv, Or.inr hmay⟩

/-- The loop over the table keeps the invariant, and empties the chains if the body takes every
record out. -/
theorem tableLoop_spec (hb : Visits may body) (h : Inv s C) :
    ∃ t C', tableLoop body s = some t ∧ Inv t C' ∧ ((∀ i, C' i = []) ∨ may) := by
  have hloop : ∀ (is : List (Fin 16)) {s : Nat25} {C : Fin 16 → List DbAddr}, Inv s C →
      ∃ t C', is.foldlM (fun s i => chainLoop body s.used.length (s.links.head i) s) s = some t ∧
        Inv t C' ∧
        ((∀ i ∈ is, C' i = []) ∧ (∀ i, C i = [] → C' i = []) ∨ may) := by
    intro is
    induction is with
    | nil =>
      intro s C h
      exact ⟨s, C, rfl, h, Or.inl ⟨by simp, fun _ hi => hi⟩⟩
    | cons i is ih =>
      intro s C h
      rw [List.foldlM_cons, h.chains.head]
      obtain ⟨u, ks, hu, hinv, hks⟩ := chainLoop_spec hb (C i) [] h rfl (h.length_le i)
      obtain ⟨t, C', ht, hinv', hC'⟩ := ih hinv
      refine ⟨t, C', by simp [hu, ht], hinv', ?_⟩
      rcases hks with rfl | hmay
      · refine hC'.imp (fun ⟨hall, hkeep⟩ => ⟨fun j hj => ?_, fun j hj => ?_⟩) id
        · rcases List.mem_cons.mp hj with rfl | hj
          · exact hkeep j (by simp)
          · exact hall j hj
        · refine hkeep j ?_
          rcases eq_or_ne j i with rfl | hne
          · simp
          · simpa [hne] using hj
      · exact Or.inr hmay
  obtain ⟨t, C', ht, hinv, hC'⟩ := hloop (List.finRange 16) h
  exact ⟨t, C', ht, hinv, hC'.imp (fun ⟨hall, _⟩ i => hall i (List.mem_finRange i)) id⟩

namespace Inv

theorem scdbTouch (h : Inv s C) (ha : a ∈ C i) : ∃ t, s.scdbTouch a = some t ∧ Inv t C := by
  rw [Nat25.scdbTouch, if_pos (h.mem_used ha)]
  exact ⟨_, rfl, h.updateEntry fun _ => rfl⟩

theorem scdbTx (h : Inv s C) (mac : MacAddr) (ip : IpAddr) :
    ∃ r, s.scdbTx mac ip = some r ∧ Inv r.2 C := by
  rw [Nat25.scdbTx, Nat25.scdbFindEntry, h.findEntry, Option.bind_some]
  by_cases hmac : s.scdbMac ≠ mac
  · rw [if_pos hmac]
    split
    · rename_i a hf
      have ha := List.mem_of_find?_eq_some hf
      have hset : Inv { s with scdbEntry := some a, scdbMac := mac, scdbIp := ip } C :=
        ⟨h.chains, h.used, h.nodup, h.bucket, h.unique, fun b hb => ⟨_, Option.some.inj hb ▸ ha⟩⟩
      obtain ⟨t, ht, hinv⟩ := hset.scdbTouch ha
      exact ⟨(false, t), by rw [ht]; rfl, hinv⟩
    · exact ⟨_, rfl, h.chains, h.used, h.nodup, h.bucket, h.unique, nofun⟩
  · rw [if_neg hmac]
    split
    · rename_i a ha
      obtain ⟨i, hi⟩ := h.scdb a ha
      obtain ⟨t, ht, hinv⟩ := h.scdbTouch hi
      exact ⟨(false, t), by rw [ht]; rfl, hinv⟩
    · rename_i hnone
      refine ⟨_, rfl, h.chains, h.used, h.nodup, h.bucket, h.unique, fun b hb => ?_⟩
      rw [hnone] at hb
      cases hb

end Inv

/-! ## Runs -/

/-- What happens to the database. `clientTx` is the part of `rtw_br_client_tx` about the
shortcut. -/
inductive DbEvent where
  | insert (mac : MacAddr) (key : NetAddr) (mem : Option DbAddr)
  | lookup (key : NetAddr)
  | clientTx (mac : MacAddr) (ip : IpAddr)
  | expire
  | cleanup
  | clock (jiffies : BitVec 64)

def dbStep (s : Nat25) : DbEvent → Option Nat25
  | .insert mac key mem => s.networkInsert mac key mem
  | .lookup key => (s.networkLookupAndReplace key).map fun r => r.2.2
  | .clientTx mac ip => (s.scdbTx mac ip).map fun r => r.2
  | .expire => s.dbExpire
  | .cleanup => s.dbCleanup
  | .clock jiffies => some { s with jiffies := jiffies }

theorem inv_dbStep (h : Inv s C) : ∀ e, ∃ t C', s.dbStep e = some t ∧ Inv t C'
  | .insert mac key mem => h.networkInsert mac key mem
  | .lookup key => by
    obtain ⟨r, hr, hinv⟩ := h.networkLookupAndReplace key
    exact ⟨r.2.2, C, by rw [dbStep, hr]; rfl, hinv⟩
  | .clientTx mac ip => by
    obtain ⟨r, hr, hinv⟩ := h.scdbTx mac ip
    exact ⟨r.2, C, by rw [dbStep, hr]; rfl, hinv⟩
  | .expire => by
    obtain ⟨t, C', ht, hinv, -⟩ := tableLoop_spec visits_expireEntry h
    exact ⟨t, C', ht, hinv⟩
  | .cleanup => by
    obtain ⟨t, C', ht, hinv, -⟩ := tableLoop_spec visits_freeEntry h
    exact ⟨t, C', ht, hinv⟩
  | .clock jiffies => ⟨_, C, rfl, h.chains, h.used, h.nodup, h.bucket, h.unique, h.scdb⟩

/-- After every run every chain is the one of its bucket : it ends, each record points back at the
link to it, each record is in the chain of its address, no address is twice in the table, and the
shortcut is `NULL` or a record of the table. `nat25_db_cleanup` makes the table empty. -/
theorem nat25Db_run (s : Nat25) (es : List DbEvent) :
    ∃ t C, runM dbStep s.init es = some t ∧ Chains t.links C ∧
      (∀ i, ∀ a ∈ C i, nat25NetworkHash (t.entry a).networkAddr = i) ∧
      (∀ i j, ∀ a ∈ C i, ∀ b ∈ C j, (t.entry a).networkAddr = (t.entry b).networkAddr → a = b) ∧
      (∀ a, t.scdbEntry = some a → ∃ i, a ∈ C i) ∧
      ∃ u, t.dbCleanup = some u ∧ (∀ i, u.links.head i = none) ∧ u.used = [] ∧ u.scdbEntry = none := by
  obtain ⟨t, ht, C, h⟩ := exists_runM (I := fun s => ∃ C, Inv s C)
    (fun u e ⟨_, hu⟩ => by
      obtain ⟨v, C', hv, hinv⟩ := inv_dbStep hu e
      exact ⟨v, hv, C', hinv⟩) es ⟨_, inv_init s⟩
  obtain ⟨u, C', hu, hinv, hempty | hfalse⟩ := tableLoop_spec visits_freeEntry h
  · refine ⟨t, C, ht, h.chains, h.bucket, h.unique, h.scdb, u, hu, fun i => ?_, ?_, ?_⟩
    · rw [hinv.chains.head, hempty]
      rfl
    · refine List.eq_nil_iff_forall_not_mem.mpr fun a ha => ?_
      obtain ⟨i, hi⟩ := (hinv.used a).mp ha
      rw [hempty] at hi
      exact absurd hi List.not_mem_nil
    · cases hs : u.scdbEntry with
      | none => rfl
      | some a =>
        obtain ⟨i, hi⟩ := hinv.scdb a hs
        rw [hempty] at hi
        exact absurd hi List.not_mem_nil
  · exact hfalse.elim

end Nat25

end Rtl8188eu
