import Rtl8188eu.BridgeLearning

/-!
# The shortcut of the bridge

`rtw_br_client_tx` remembers the last host that sent an IP frame (`scdb_mac`, `scdb_ip`,
`scdb_entry`). The next frames of the host are not learned from, and `nat25_handle_frame` writes the
address of the host into the frames for `scdb_ip` without a search.

The shortcut does what the search does as long as its record holds what the shortcut holds
(`Cached`). `shortcut_run` says which frames keep it so.
-/

namespace Rtl8188eu

open HashChains Runs

/-- The frame without its VLAN tag. -/
def Skb.untagged (skb : Skb) : Skb := if skb.protocol = ethP8021q then skb.vlanPull else skb

/-- The sender of an ARP frame, after the address `mac` is written into it. -/
def Skb.arpSender (skb : Skb) (mac : MacAddr) : IpAddr :=
  let skb := skb.write (14 + 8) mac.toList
  ipAt skb.mem (skb.data + 14 + 8 + skb.arHln)

/-- What happens to the bridge. -/
inductive BridgeEvent where
  | tx (env : BridgeEnv) (skb : Skb)
  | rx (env : BridgeEnv) (skb : Skb)
  | expire
  | cleanup
  | clock (jiffies : BitVec 64)

namespace Bridge

/-- The bridge with another database. -/
def setDb (s : Bridge) (db : Nat25) : Bridge := { s with toNat25 := db }

/-- The shortcut is switched. -/
def setSc (s : Bridge) (b : Bool) : Bridge := { s with nat25scDisable := b }

def bridgeStep (s : Bridge) : BridgeEvent → Option Bridge
  | .tx env skb => (s.rtwBrClientTx env skb).map fun r => r.2.2
  | .rx env skb => (s.nat25HandleFrame env skb).map fun r => r.2.2
  | .expire => s.dbExpire.map s.setDb
  | .cleanup => s.dbCleanup.map s.setDb
  | .clock jiffies => some (s.setDb { s.toNat25 with jiffies := jiffies })

/-- The network address that the full path records for the source of a frame. -/
def sourceKey (s : Bridge) (skb : Skb) : Option NetAddr :=
  if skb.protocol = ethPIp then some (nat25GenerateIpv4NetworkAddr skb.saddr.reverse)
  else if skb.protocol = ethPArp ∧ skb.mem.be16 (skb.data + 14 + 2) = ethPIp then
    some (nat25GenerateIpv4NetworkAddr (skb.arpSender s.macAddr))
  else none

/-- There is a record with the address. -/
def Known (s : Nat25) (key : NetAddr) : Prop := ∃ a, s.findEntry key = some (some a)

/-- The shortcut agrees with the full path : a received frame gets the same destination with it and
without it, and after a frame was transmitted its source is in the database. -/
def Agrees (s : Bridge) : BridgeEvent → Prop
  | .rx env skb => ∃ r r', (s.setSc false).nat25HandleFrame env skb = some r ∧
      (s.setSc true).nat25HandleFrame env skb = some r' ∧ r.2.1.dst = r'.2.1.dst
  | .tx env skb => ∃ r, s.rtwBrClientTx env skb = some r ∧
      (r.1 = 0 → ∀ key ∈ s.sourceKey skb.untagged, Known r.2.2.toNat25 key)
  | _ => True

/-- An IP frame that is transmitted leaves the shortcut right : its address reads the same in both
orders ; it is known if the shortcut is to its sender ; the record that the shortcut is set to is
one of its sender ; and it can be recorded if it is not known. -/
structure SafeIp (s : Bridge) (env : BridgeEnv) (skb : Skb) : Prop where
  reverse : skb.saddr.reverse = skb.saddr
  known : s.scdbMac = skb.src → s.scdbEntry ≠ none → Known s.toNat25 (nat25GenerateIpv4NetworkAddr skb.saddr)
  sender : s.scdbMac ≠ skb.src → ∀ a, s.scdbFindEntry skb.saddr = some (some a) →
    (s.entry a).macAddr = skb.src
  stored : ¬ Known s.toNat25 (nat25GenerateIpv4NetworkAddr skb.saddr) →
    skb.malformed = false ∧ skb.saddr ≠ Vector.replicate 4 0 ∧ ∃ a, s.rtwMalloc env.mem = some a

/-- An ARP frame that is transmitted leaves the shortcut right : its sender can be recorded, and it
does not give the address of the shortcut to another host. -/
structure SafeArp (s : Bridge) (env : BridgeEnv) (skb : Skb) : Prop where
  stored : s.CanInsert (nat25GenerateIpv4NetworkAddr (skb.arpSender s.macAddr)) env.mem
  sender : ∀ a, s.scdbEntry = some a →
    (s.entry a).networkAddr = nat25GenerateIpv4NetworkAddr (skb.arpSender s.macAddr) → skb.src = s.scdbMac

/-- An IP frame that is received for the address of the shortcut is in order, and the shortcut is to
a record that has not expired. -/
def SafeRx (s : Bridge) (skb : Skb) : Prop :=
  skb.protocol = ethPIp → s.scdbIp = skb.daddr →
    skb.malformed = false ∧ ∃ a, s.scdbEntry = some a ∧ s.hasExpired (s.entry a) = false

/-- The events that leave the shortcut right. -/
def Safe (s : Bridge) : BridgeEvent → Prop
  | .tx env skb =>
    (skb.untagged.protocol = ethPIp → s.SafeIp env skb.untagged) ∧
    (skb.untagged.protocol = ethPArp → skb.untagged.mem.be16 (skb.untagged.data + 14 + 2) = ethPIp →
      s.SafeArp env skb.untagged)
  | .rx _ skb => isMcast skb.dst = false → s.nat25Disable = false → s.SafeRx skb.untagged
  | _ => True

end Bridge

namespace Nat25

/-- The record of the shortcut holds what the shortcut holds. -/
def ScdbHolds (s : Nat25) : Prop :=
  ∀ a, s.scdbEntry = some a → (s.entry a).macAddr = s.scdbMac ∧
    (s.entry a).networkAddr = nat25GenerateIpv4NetworkAddr s.scdbIp ∧ s.scdbIp.reverse = s.scdbIp

/-- The database is sound, and so is the shortcut. -/
structure Cached (s : Nat25) : Prop where
  inv : ∃ C, Inv s C
  holds : ScdbHolds s

variable {s t : Nat25} {mac : MacAddr} {key : NetAddr} {mem : Option DbAddr} {a : DbAddr}
  {ip : IpAddr}

theorem scdbHolds_of_none (hnone : s.scdbEntry = none) : ScdbHolds s := fun a ha => by
  rw [hnone] at ha
  cases ha

/-- What changes neither the shortcut nor the addresses in its record. -/
theorem ScdbHolds.of_frame (h : ScdbHolds s) (hentry : t.scdbEntry = s.scdbEntry)
    (hmac : t.scdbMac = s.scdbMac) (hip : t.scdbIp = s.scdbIp)
    (hrec : ∀ a, s.scdbEntry = some a → (t.entry a).macAddr = (s.entry a).macAddr ∧
      (t.entry a).networkAddr = (s.entry a).networkAddr) : ScdbHolds t := fun a ha => by
  rw [hentry] at ha
  rw [(hrec a ha).1, (hrec a ha).2, hmac, hip]
  exact h a ha

/-- A record is changed, but not its addresses. -/
theorem ScdbHolds.updateEntry (h : ScdbHolds s) {b : DbAddr} {f : Nat25Entry → Nat25Entry}
    (hf : ∀ e, (f e).macAddr = e.macAddr ∧ (f e).networkAddr = e.networkAddr) :
    ScdbHolds (s.updateEntry b f) := by
  refine h.of_frame rfl rfl rfl fun a _ => ?_
  rw [updateEntry_entry]
  split
  · exact hf _
  · exact ⟨rfl, rfl⟩

/-- A record is freed, and the shortcut to it is forgotten. -/
theorem ScdbHolds.freeEntry (h : ScdbHolds s) {f : DbAddr} (ht : s.freeEntry f = some t) :
    ScdbHolds t := by
  obtain ⟨hentry, -, -, -, hnone | ⟨hs, hmac, hip, -⟩⟩ := freeEntry_frame ht
  · exact scdbHolds_of_none hnone
  · refine h.of_frame hs hmac hip fun a _ => ?_
    rw [hentry]
    exact ⟨rfl, rfl⟩

theorem ScdbHolds.expireEntry (h : ScdbHolds s) {f : DbAddr} (ht : s.expireEntry f = some t) :
    ScdbHolds t := by
  unfold Nat25.expireEntry at ht
  split at ht
  · have hu : ScdbHolds (s.updateEntry f fun e => { e with useCount := e.useCount - 1 }) :=
      h.updateEntry fun _ => ⟨rfl, rfl⟩
    dsimp only at ht
    split at ht
    · exact hu.freeEntry ht
    · cases ht
      exact hu
  · cases ht
    exact h

theorem cached_init (s : Nat25) : Cached s.init := ⟨⟨_, inv_init s⟩, scdbHolds_of_none rfl⟩

namespace Cached

/-- The record of the shortcut is in the table. -/
theorem used (h : Cached s) (ha : s.scdbEntry = some a) : a ∈ s.used := by
  obtain ⟨C, hC⟩ := h.inv
  exact (hC.used a).mpr (hC.scdb a ha)

/-- An insert that does not give the address of the shortcut to another host. -/
theorem networkInsert (h : Cached s) (ht : s.networkInsert mac key mem = some t)
    (hsender : ∀ a, s.scdbEntry = some a → (s.entry a).networkAddr = key →
    mac = s.scdbMac) : Cached t := by
  obtain ⟨C, hC⟩ := h.inv
  obtain ⟨v, C', hv, hinv⟩ := hC.networkInsert mac key mem
  obtain rfl : v = t := Option.some.inj (hv.symm.trans ht)
  obtain ⟨-, -, hmac, hip, hentry⟩ := networkInsert_frame ht
  refine ⟨⟨C', hinv⟩, h.holds.of_frame hentry hmac hip fun a ha => ?_⟩
  obtain ⟨-, hsame | ⟨hkey, hnew⟩⟩ := hC.insert_record ht (h.used ha)
  · rw [hsame]
    exact ⟨rfl, rfl⟩
  · rw [hnew]
    exact ⟨(hsender a ha hkey).trans (h.holds a ha).1.symm, rfl⟩

/-- A lookup changes the number of uses only. -/
theorem networkLookupAndReplace (h : Cached s) (key : NetAddr) :
    ∃ r, s.networkLookupAndReplace key = some r ∧ Cached r.2.2 := by
  obtain ⟨C, hC⟩ := h.inv
  obtain ⟨r, hr, hinv⟩ := hC.networkLookupAndReplace key
  refine ⟨r, hr, ⟨C, hinv⟩, ?_⟩
  obtain hs | ⟨b, hs⟩ := networkLookupAndReplace_frame hr
  · rw [hs]
    exact h.holds
  · rw [hs]
    exact h.holds.updateEntry fun _ => ⟨rfl, rfl⟩

theorem dbExpire (h : Cached s) : ∃ t, s.dbExpire = some t ∧ Cached t := by
  obtain ⟨C, hC⟩ := h.inv
  obtain ⟨t, C', ht, hinv, -⟩ := tableLoop_spec visits_expireEntry hC
  exact ⟨t, ht, ⟨C', hinv⟩, tableLoop_keeps (fun _ _ _ hu hv => hu.expireEntry hv) h.holds ht⟩

theorem dbCleanup (h : Cached s) : ∃ t, s.dbCleanup = some t ∧ Cached t := by
  obtain ⟨C, hC⟩ := h.inv
  obtain ⟨t, C', ht, hinv, -⟩ := tableLoop_spec visits_freeEntry hC
  exact ⟨t, ht, ⟨C', hinv⟩, tableLoop_keeps (fun _ _ _ hu hv => hu.freeEntry hv) h.holds ht⟩

/-- The shortcut is set to a record of the sender only, and the frames that go by it have a known
address. -/
theorem scdbTx (h : Cached s) (hip : ip.reverse = ip)
    (hknown : s.scdbMac = mac → s.scdbEntry ≠ none →
    ∃ a, s.findEntry (nat25GenerateIpv4NetworkAddr ip) = some (some a))
    (hsender : s.scdbMac ≠ mac → ∀ a, s.scdbFindEntry ip = some (some a) →
    (s.entry a).macAddr = mac) :
    ∃ r, s.scdbTx mac ip = some r ∧ Cached r.2 ∧ r.2.used = s.used ∧
      (∀ b, (r.2.entry b).networkAddr = (s.entry b).networkAddr) ∧
      (r.1 = false → ∃ a, s.findEntry (nat25GenerateIpv4NetworkAddr ip) = some (some a)) ∧
      (r.1 = true → r.2.scdbEntry = none) := by
  obtain ⟨C, hC⟩ := h.inv
  obtain ⟨r, hr, hinv⟩ := hC.scdbTx mac ip
  obtain ⟨hused, hrec⟩ := scdbTx_frame hr
  refine ⟨r, hr, ⟨⟨C, hinv⟩, ?_⟩, hused, fun b => (hrec b).1, ?_⟩
  · obtain ⟨hmac, b, hb, rfl⟩ | ⟨-, -, rfl⟩ | ⟨-, b, -, rfl⟩ | ⟨-, hnone, rfl⟩ := scdbTx_cases hr
    · have hset : ScdbHolds { s with scdbEntry := some b, scdbMac := mac, scdbIp := ip } := by
        intro a ha
        cases ha
        exact ⟨hsender hmac b hb, (hC.find_iff.mp hb).2, hip⟩
      exact hset.updateEntry fun _ => ⟨rfl, rfl⟩
    · exact scdbHolds_of_none rfl
    · exact h.holds.updateEntry fun _ => ⟨rfl, rfl⟩
    · exact scdbHolds_of_none hnone
  · obtain ⟨-, b, hb, rfl⟩ | ⟨-, -, rfl⟩ | ⟨hmac, b, hb, rfl⟩ | ⟨-, hnone, rfl⟩ := scdbTx_cases hr
    · exact ⟨fun _ => ⟨b, hb⟩, nofun⟩
    · exact ⟨nofun, fun _ => rfl⟩
    · exact ⟨fun _ => hknown hmac (by rw [hb]; exact nofun), nofun⟩
    · exact ⟨nofun, fun _ => hnone⟩

end Cached

end Nat25

namespace Bridge

variable {s : Bridge} {env : BridgeEnv} {skb : Skb} {key : NetAddr} {u t : Nat25}

/-- The known addresses are the ones in the records. -/
theorem known_iff (hu : ∃ C, Nat25.Inv u C) : Known u key ↔
    ∃ a ∈ u.used, (u.entry a).networkAddr = key := by
  obtain ⟨C, hC⟩ := hu
  exact exists_congr fun a => hC.find_iff

/-- What changes no network address changes no known address. -/
theorem known_of_frame (hu : ∃ C, Nat25.Inv u C) (ht : ∃ C, Nat25.Inv t C) (hused : t.used = u.used)
    (hrec : ∀ b, (t.entry b).networkAddr = (u.entry b).networkAddr) : Known t key ↔
    Known u key := by
  rw [known_iff hu, known_iff ht, hused]
  simp only [hrec]

/-- After an insert its address is known. -/
theorem known_of_networkInsert (hu : ∃ C, Nat25.Inv u C) {mac : MacAddr} {mem : Option DbAddr}
    (ht : u.networkInsert mac key mem = some t) (hcan : u.CanInsert key mem) : Known t key := by
  obtain ⟨C, hC⟩ := hu
  obtain ⟨v, C', hv, hinv⟩ := hC.networkInsert mac key mem
  obtain rfl : v = t := Option.some.inj (hv.symm.trans ht)
  obtain ⟨a, ha, hkey, -⟩ := hC.inserted ht hcan
  exact ⟨a, hinv.find_iff.mpr ⟨ha, hkey⟩⟩

/-! ## Frames that are learned from -/

theorem exists_insertDb (h : Nat25.Cached s.toNat25) (env : BridgeEnv) (skb : Skb) (key : NetAddr)
    (hsender : ∀ a, s.scdbEntry = some a → (s.entry a).networkAddr = key → skb.src = s.scdbMac) :
    ∃ db, s.insertDb env skb key = some (s.setDb db) ∧ Nat25.Cached db ∧
      (s.CanInsert key env.mem → Known db key) := by
  obtain ⟨C, hC⟩ := h.inv
  obtain ⟨db, -, hdb, -⟩ := hC.networkInsert skb.src key env.mem
  refine ⟨db, ?_, h.networkInsert hdb hsender, known_of_networkInsert h.inv hdb⟩
  rw [insertDb, hdb]
  rfl

theorem insert_ip (env : BridgeEnv) (h : Nat25.Cached s.toNat25) (hp : skb.protocol = ethPIp)
    (hip : skb.saddr.reverse = skb.saddr)
    (hnone : s.scdbEntry = none)
    (hstored : ¬ Known s.toNat25 (nat25GenerateIpv4NetworkAddr skb.saddr) →
      skb.malformed = false ∧ skb.saddr ≠ Vector.replicate 4 0 ∧
        ∃ a, s.rtwMalloc env.mem = some a) :
    ∃ q, s.nat25DbHandle env skb .insert = some q ∧ Nat25.Cached q.2.2.toNat25 ∧
      Known q.2.2.toNat25 (nat25GenerateIpv4NetworkAddr skb.saddr) := by
  rw [nat25DbHandle, if_pos hp, handleIp, hip]
  by_cases hm : skb.malformed = true
  · rw [if_pos hm]
    refine ⟨_, rfl, h, ?_⟩
    by_contra hk
    rw [(hstored hk).1] at hm
    cases hm
  rw [if_neg hm]
  by_cases hz : skb.saddr = Vector.replicate 4 0
  · rw [if_pos hz]
    refine ⟨_, rfl, h, ?_⟩
    by_contra hk
    exact (hstored hk).2.1 hz
  rw [if_neg hz]
  obtain ⟨db, hdb, hcached, hknown⟩ :=
    exists_insertDb h env skb (nat25GenerateIpv4NetworkAddr skb.saddr)
    fun a ha => by
      rw [hnone] at ha
      cases ha
  rw [hdb]
  refine ⟨_, rfl, hcached, hknown ?_⟩
  by_cases hk : Known s.toNat25 (nat25GenerateIpv4NetworkAddr skb.saddr)
  · exact Or.inl hk
  · exact Or.inr (hstored hk).2.2

theorem insert_arp (h : Nat25.Cached s.toNat25) (hp : skb.protocol = ethPArp)
    (hpro : skb.mem.be16 (skb.data + 14 + 2) = ethPIp) (hsafe : s.SafeArp env skb) :
    ∃ q, s.nat25DbHandle env skb .insert = some q ∧ Nat25.Cached q.2.2.toNat25 ∧
      Known q.2.2.toNat25 (nat25GenerateIpv4NetworkAddr (skb.arpSender s.macAddr)) := by
  have hnip : skb.protocol ≠ ethPIp := by
    rw [hp]
    decide
  obtain ⟨db, hdb, hcached, hknown⟩ := exists_insertDb h env (skb.write (14 + 8) s.macAddr.toList)
    (nat25GenerateIpv4NetworkAddr (skb.arpSender s.macAddr)) fun a ha hkey => by
      rw [Skb.src_write skb (by omega)]
      exact hsafe.sender a ha hkey
  rw [nat25DbHandle, if_neg hnip, if_pos hp, handleArp, if_neg (not_not.mpr hpro)]
  dsimp only
  unfold Skb.arpSender at hdb
  rw [hdb]
  exact ⟨_, rfl, hcached, hknown hsafe.stored⟩

/-- The records of the other frames have addresses of another type. -/
theorem insert_other (env : BridgeEnv) (h : Nat25.Cached s.toNat25) (hnip : skb.protocol ≠ ethPIp)
    (harp : skb.protocol = ethPArp → skb.mem.be16 (skb.data + 14 + 2) ≠ ethPIp) :
    ∃ q, s.nat25DbHandle env skb .insert = some q ∧ Nat25.Cached q.2.2.toNat25 := by
  have hother : ∀ {key : NetAddr}, key[0] ≠ nat25Ipv4 →
    ∃ db, s.insertDb env skb key = some (s.setDb db) ∧
      Nat25.Cached db := by
    intro key hkey
    obtain ⟨db, hdb, hcached, -⟩ := exists_insertDb h env skb key fun a ha hk => by
      refine absurd ?_ hkey
      rw [← hk, (h.holds a ha).2.1]
      rfl
    exact ⟨db, hdb, hcached⟩
  rw [nat25DbHandle, if_neg hnip]
  split_ifs with hp hipx hppp heap hipv6
  · rw [handleArp, if_pos (harp hp)]
    exact ⟨_, rfl, h⟩
  · exact ⟨_, rfl, h⟩
  · rw [handlePppoe]
    split_ifs
    · exact ⟨_, rfl, h⟩
    · obtain ⟨db, hdb, hcached⟩ :=
        @hother (nat25GeneratePppoeNetworkAddr skb.mem skb.data (skb.data + 14 + 2))
        (by simp [nat25GeneratePppoeNetworkAddr, nat25Pppoe, nat25Ipv4])
      rw [hdb]
      exact ⟨_, rfl, hcached⟩
  · exact ⟨_, rfl, h⟩
  · rw [handleIpv6]
    split_ifs
    · exact ⟨_, rfl, h⟩
    · exact ⟨_, rfl, h⟩
    · obtain ⟨db, hdb, hcached⟩ :=
        @hother (nat25GenerateIpv6NetworkAddr skb.mem (skb.data + 14 + 8))
        (by simp [nat25GenerateIpv6NetworkAddr, nat25Ipv6, nat25Ipv4])
      rw [hdb]
      exact ⟨_, rfl, hcached⟩
  · exact ⟨_, rfl, h⟩

/-- `NAT25_CHECK` changes nothing. -/
theorem check_eq (s : Bridge) (env : BridgeEnv) (skb : Skb) :
    ∃ ret, s.nat25DbHandle env skb .check = some (ret, skb, s) := by
  unfold nat25DbHandle
  split_ifs
  · exact ⟨_, rfl⟩
  · unfold handleArp
    split_ifs
    · exact ⟨_, rfl⟩
    · exact ⟨_, rfl⟩
  · exact ⟨_, rfl⟩
  · exact ⟨_, rfl⟩
  · exact ⟨_, rfl⟩
  · unfold handleIpv6
    split
    · exact ⟨_, rfl⟩
    · exact ⟨_, rfl⟩
  · exact ⟨_, rfl⟩

/-- A frame behind the shortcut is dropped, or inserted. -/
theorem exists_clientTxNat25 {q : ℤ × Skb × Bridge}
    (hq : s.nat25DbHandle env skb .insert = some q) :
    ∃ r, s.clientTxNat25 env skb = some r ∧ ((r.1 = -1 ∧ r.2.2 = s) ∨ r.2.2 = q.2.2) := by
  obtain ⟨ret, hret⟩ := check_eq s env skb
  rw [clientTxNat25, hret, Option.bind_some]
  dsimp only
  split_ifs
  · exact ⟨_, rfl, Or.inl ⟨rfl, rfl⟩⟩
  · rw [hq, Option.map_some]
    refine ⟨_, rfl, Or.inr ?_⟩
    split_ifs
    · rfl
    · rfl
    · rfl

/-! ## Frames that are transmitted -/

/-- A frame that is not tagged. -/
theorem untagged_eq (hp : skb.protocol = ethPIp) : skb.untagged = skb := by
  rw [Skb.untagged, if_neg]
  rw [hp]
  decide

theorem sourceKey_ip (hp : skb.protocol = ethPIp) (hip : skb.saddr.reverse = skb.saddr) :
    s.sourceKey skb = some (nat25GenerateIpv4NetworkAddr skb.saddr) := by
  rw [sourceKey, if_pos hp, hip]

/-- A frame that is inserted, with the tag put back. -/
theorem exists_push (h : Nat25.Cached s.toNat25) {f : Skb} {push : Skb → Skb} {q : ℤ × Skb × Bridge}
    (hq : s.nat25DbHandle env f .insert = some q) (hqcached : Nat25.Cached q.2.2.toNat25)
    {P : NetAddr → Prop} (hknown : ∀ key, P key → Known q.2.2.toNat25 key) :
    ∃ r, ((s.clientTxNat25 env f).map fun (ret, skb, s) =>
        if ret = 1 then (0, push skb, s) else (ret, skb, s)) = some r ∧
      Nat25.Cached r.2.2.toNat25 ∧ (r.1 = 0 → ∀ key, P key → Known r.2.2.toNat25 key) := by
  obtain ⟨⟨ret, g, t⟩, hr, ⟨hdrop, hs⟩ | hs⟩ := exists_clientTxNat25 hq
  · rw [hr, Option.map_some]
    dsimp only at hdrop hs
    rw [hdrop, hs]
    exact ⟨_, rfl, h, nofun⟩
  · rw [hr, Option.map_some]
    dsimp only at hs
    rw [hs]
    dsimp only
    split_ifs
    · exact ⟨_, rfl, hqcached, fun _ => hknown⟩
    · exact ⟨_, rfl, hqcached, fun _ => hknown⟩

/-- After a safe frame the shortcut is right, and the source of the frame is known. -/
theorem exists_rtwBrClientTx (h : Nat25.Cached s.toNat25) (hsafe : s.Safe (.tx env skb)) :
    ∃ r, s.rtwBrClientTx env skb = some r ∧ Nat25.Cached r.2.2.toNat25 ∧
      (r.1 = 0 → ∀ key ∈ s.sourceKey skb.untagged, Known r.2.2.toNat25 key) := by
  obtain ⟨hsafeIp, hsafeArp⟩ := hsafe
  unfold rtwBrClientTx
  split_ifs with hsc
  · obtain ⟨-, -, -, hp, hmac, hentry⟩ := hsc
    rw [untagged_eq hp] at hsafeIp ⊢
    have hip := hsafeIp hp
    obtain ⟨r, hr, hcached, hused, hnet, -, -⟩ := h.scdbTx hip.reverse hip.known hip.sender
    rw [hr]
    refine ⟨_, rfl, hcached, fun _ key hkey => ?_⟩
    rw [sourceKey_ip hp hip.reverse] at hkey
    obtain rfl := Option.mem_some_iff.mp hkey
    refine (known_of_frame h.inv hcached.inv hused hnet).mpr (hip.known hmac fun hnone => ?_)
    rw [hnone] at hentry
    cases hentry
  · extract_lets tagged vlanHdr f s' push
    have hf : f = skb.untagged := rfl
    have hdb : s'.toNat25 = s.toNat25 := by
      unfold s'
      split_ifs
      · rfl
      · rfl
    have hmacAddr : s'.macAddr = s.macAddr := by
      unfold s'
      split_ifs
      · rfl
      · rfl
    rw [← hf] at hsafeIp hsafeArp ⊢
    clear_value f s' push
    clear hf
    by_cases hp : f.protocol = ethPIp
    · have hip := hsafeIp hp
      obtain ⟨⟨doNat25, db⟩, hr, hcached, hused, hnet, hfalse, htrue⟩ :=
        h.scdbTx hip.reverse hip.known hip.sender
      have hknown : ∀ {key : NetAddr}, Known db key ↔ Known s.toNat25 key :=
        known_of_frame h.inv hcached.inv hused hnet
      rw [if_pos hp, hdb, hr, Option.bind_some]
      dsimp only
      cases doNat25 with
      | false =>
        rw [if_neg Bool.false_ne_true]
        refine ⟨_, rfl, hcached, fun _ key hkey => ?_⟩
        rw [sourceKey_ip hp hip.reverse] at hkey
        obtain rfl := Option.mem_some_iff.mp hkey
        exact hknown.mpr (hfalse rfl)
      | true =>
        rw [if_pos rfl]
        obtain ⟨q, hq, hqcached, hqknown⟩ := insert_ip (s := s'.setDb db) env hcached hp hip.reverse
          (htrue rfl) fun hk => by
            obtain ⟨hm, hz, a, ha⟩ := hip.stored (mt hknown.mpr hk)
            exact ⟨hm, hz, a, by
              rw [← ha]; exact congrArg (fun l => env.mem.filter fun a => a ∉ l) hused⟩
        exact exists_push hcached hq hqcached fun key hkey => by
          rw [sourceKey_ip hp hip.reverse] at hkey
          obtain rfl := Option.mem_some_iff.mp hkey
          exact hqknown
    · rw [if_neg hp, Option.bind_some]
      dsimp only
      rw [if_pos rfl]
      have hcached : Nat25.Cached s'.toNat25 := hdb ▸ h
      by_cases harp : f.protocol = ethPArp ∧ f.mem.be16 (f.data + 14 + 2) = ethPIp
      · have hsafe := hsafeArp harp.1 harp.2
        have hsafe' : s'.SafeArp env f := by
          constructor
          · rw [hdb, hmacAddr]
            exact hsafe.stored
          · rw [hdb, hmacAddr]
            exact hsafe.sender
        obtain ⟨q, hq, hqcached, hqknown⟩ := insert_arp hcached harp.1 harp.2 hsafe'
        exact exists_push hcached hq hqcached fun key hkey => by
          rw [sourceKey, if_neg hp, if_pos harp, ← hmacAddr] at hkey
          obtain rfl := Option.mem_some_iff.mp hkey
          exact hqknown
      · obtain ⟨q, hq, hqcached⟩ := insert_other env hcached hp (not_and.mp harp)
        exact exists_push hcached hq hqcached fun key hkey => by
          rw [sourceKey, if_neg hp, if_neg harp] at hkey
          cases hkey

/-! ## Frames that are received -/

theorem lookupDb_setSc (b : Bool) : (s.setSc b).lookupDb skb key =
    (s.lookupDb skb key).map fun r => (r.1, r.2.1, r.2.2.setSc b) := by
  rw [lookupDb, lookupDb, Option.map_map]
  rfl

theorem netdevBrInit_setSc (b : Bool) : (s.setSc b).netdevBrInit = s.netdevBrInit.setSc b := by
  unfold netdevBrInit setSc
  split_ifs
  · rfl
  · rfl

/-- The switch of the shortcut does not matter to `NAT25_LOOKUP`. -/
theorem lookup_setSc (b : Bool) : (s.setSc b).nat25DbHandle env skb .lookup =
    (s.nat25DbHandle env skb .lookup).map fun r => (r.1, r.2.1, r.2.2.setSc b) := by
  unfold nat25DbHandle
  split_ifs
  · rw [handleIp, handleIp]
    split_ifs
    · rfl
    · rw [lookupDb_setSc, Option.map_map, Option.map_map]
      congr 1
      funext r
      obtain ⟨found, f, t⟩ := r
      cases found with
      | true => rfl
      | false =>
        dsimp only [Function.comp]
        have hbr : (t.setSc b).brMac = t.brMac := rfl
        rw [hbr, netdevBrInit_setSc]
        split_ifs
        · rfl
        · rfl
        · rfl
  · unfold handleArp
    split_ifs
    · rfl
    · dsimp only
      rw [lookupDb_setSc, Option.map_map, Option.map_map]
      rfl
  · rfl
  · rw [handlePppoe, handlePppoe]
    split_ifs
    · rfl
    · rfl
    · rw [lookupDb_setSc, Option.map_map, Option.map_map]
      rfl
  · rfl
  · unfold handleIpv6
    split
    · rfl
    · dsimp only
      rw [lookupDb_setSc, Option.map_map, Option.map_map]
      rfl
  · rfl

/-- `NAT25_LOOKUP` leaves the shortcut right. -/
theorem exists_lookup (env : BridgeEnv) (skb : Skb) (h : Nat25.Cached s.toNat25) :
    ∃ r, s.nat25DbHandle env skb .lookup = some r ∧ Nat25.Cached r.2.2.toNat25 := by
  have hdb : ∀ key, ∃ r, s.lookupDb skb key = some r ∧ Nat25.Cached r.2.2.toNat25 := by
    intro key
    obtain ⟨r, hr, hcached⟩ := h.networkLookupAndReplace key
    rw [lookupDb, hr]
    exact ⟨_, rfl, hcached⟩
  unfold nat25DbHandle
  split_ifs
  · rw [handleIp]
    split_ifs
    · exact ⟨_, rfl, h⟩
    · obtain ⟨⟨found, f, t⟩, hr, hcached⟩ := hdb (nat25GenerateIpv4NetworkAddr skb.daddr.reverse)
      rw [hr, Option.map_some]
      refine ⟨_, rfl, ?_⟩
      cases found with
      | true => exact hcached
      | false =>
        have hinit : t.netdevBrInit.toNat25 = t.toNat25 := by
          unfold netdevBrInit
          split_ifs
          · rfl
          · rfl
        dsimp only
        split_ifs
        · exact hcached
        · exact hinit ▸ hcached
        · exact hcached
  · unfold handleArp
    split_ifs
    · exact ⟨_, rfl, h⟩
    · dsimp only
      obtain ⟨r, hr, hcached⟩ := hdb (nat25GenerateIpv4NetworkAddr
        (ipAt skb.mem (skb.data + 14 + 8 + skb.arHln + (skb.arHln + skb.arPln))))
      rw [hr]
      exact ⟨_, rfl, hcached⟩
  · exact ⟨_, rfl, h⟩
  · rw [handlePppoe]
    split_ifs
    · exact ⟨_, rfl, h⟩
    · exact ⟨_, rfl, h⟩
    · obtain ⟨r, hr, hcached⟩ :=
        hdb (nat25GeneratePppoeNetworkAddr skb.mem (skb.data + 6) (skb.data + 14 + 2))
      rw [hr]
      exact ⟨_, rfl, hcached⟩
  · exact ⟨_, rfl, h⟩
  · unfold handleIpv6
    split
    · exact ⟨_, rfl, h⟩
    · dsimp only
      obtain ⟨r, hr, hcached⟩ := hdb (nat25GenerateIpv6NetworkAddr skb.mem (skb.data + 14 + 24))
      rw [hr]
      exact ⟨_, rfl, hcached⟩
  · exact ⟨_, rfl, h⟩

/-- A frame without a tag leaves the shortcut right. -/
theorem exists_handleUntagged (env : BridgeEnv) (skb : Skb) (h : Nat25.Cached s.toNat25) :
    ∃ r, s.handleUntagged env skb = some r ∧ Nat25.Cached r.2.2.toNat25 := by
  unfold handleUntagged
  split_ifs
  · exact ⟨_, rfl, h⟩
  · exact exists_lookup env skb h
  · exact exists_lookup env skb h
  · exact ⟨_, rfl, h⟩

/-- The search finds for a safe frame what the shortcut holds. -/
theorem handleUntagged_setSc (env : BridgeEnv) (h : Nat25.Cached s.toNat25)
    (hsafe : s.nat25Disable = false → s.SafeRx skb) :
    ∃ r r', (s.setSc false).handleUntagged env skb = some r ∧
      (s.setSc true).handleUntagged env skb = some r' ∧ r.2.1 = r'.2.1 := by
  obtain ⟨q, hq, -⟩ := exists_lookup env skb h
  have hlookup : ∀ b, (s.setSc b).nat25DbHandle env skb .lookup =
    some (q.1, q.2.1, q.2.2.setSc b) := by
    intro b
    rw [lookup_setSc, hq]
    rfl
  have hsame : ∃ r r', (s.setSc false).nat25DbHandle env skb .lookup = some r ∧
      (s.setSc true).nat25DbHandle env skb .lookup = some r' ∧ r.2.1 = r'.2.1 :=
    ⟨_, _, hlookup false, hlookup true, rfl⟩
  unfold handleUntagged
  cases hd : s.nat25Disable with
  | true =>
    have hd' : ∀ b, (s.setSc b).nat25Disable = true := fun _ => hd
    have hbr : ∀ b, (s.setSc b).brIp = s.brIp := fun _ => rfl
    simp only [hd', hbr, Bool.not_true, Bool.false_eq_true, if_false]
    split_ifs
    · exact hsame
    · exact ⟨_, _, rfl, rfl, rfl⟩
  | false =>
    have hd' : ∀ b, (s.setSc b).nat25Disable = false := fun _ => hd
    have hon : (s.setSc false).nat25scDisable = false := rfl
    have hoff : (s.setSc true).nat25scDisable = true := rfl
    have hscdb : ∀ b, (s.setSc b).scdbIp = s.scdbIp := fun _ => rfl
    simp only [hd', hon, hoff, hscdb, Bool.not_false, Bool.not_true, Bool.false_eq_true,
      if_true, if_false,
      true_and, false_and]
    by_cases hhit : skb.protocol = ethPIp ∧ s.scdbIp = skb.daddr
    · rw [if_pos hhit]
      obtain ⟨hm, a, ha, hexp⟩ := hsafe hd hhit.1 hhit.2
      obtain ⟨hmac, hnet, hip⟩ := h.holds a ha
      obtain ⟨C, hC⟩ := h.inv
      have hfind : s.findEntry (Teach.ip.key s.scdbIp) = some (some a) := by
        rw [Teach.key, hip]
        exact hC.find_iff.mpr ⟨h.used ha, hnet⟩
      obtain ⟨r, hr, hout⟩ := lookup_ip env ⟨hhit.1, hm, hhit.2.symm⟩ hfind hexp
      obtain rfl : r = q := Option.some.inj (hr.symm.trans hq)
      refine ⟨_, _, rfl, hlookup true, ?_⟩
      rw [hout, hmac]
      rfl
    · rw [if_neg hhit]
      exact hsame

/-- `nat25_handle_frame`, by the frame without its tag. -/
theorem exists_nat25HandleFrame (env : BridgeEnv) (skb : Skb) (h : Nat25.Cached s.toNat25) :
    ∃ r, s.nat25HandleFrame env skb = some r ∧ Nat25.Cached r.2.2.toNat25 := by
  unfold nat25HandleFrame
  split_ifs
  · exact ⟨_, rfl, h⟩
  · obtain ⟨r, hr, hcached⟩ := exists_handleUntagged env skb.untagged h
    dsimp only
    rw [show (if skb.protocol = ethP8021q then skb.vlanPull else skb) = skb.untagged from rfl, hr]
    exact ⟨_, rfl, hcached⟩

/-- A safe frame gets the same destination with the shortcut and without it. -/
theorem agrees_rx (h : Nat25.Cached s.toNat25) (hsafe : s.Safe (.rx env skb)) :
    s.Agrees (.rx env skb) := by
  have huntagged : (if skb.protocol = ethP8021q then skb.vlanPull else skb) = skb.untagged := rfl
  unfold Agrees nat25HandleFrame
  by_cases hm : isMcast skb.dst = true
  · simp only [if_pos hm]
    exact ⟨_, _, rfl, rfl, rfl⟩
  · obtain ⟨r, r', hr, hr', hout⟩ := handleUntagged_setSc env h (hsafe (Bool.eq_false_iff.mpr hm))
    simp only [if_neg hm, huntagged, hr, hr', Option.map_some, hout]
    exact ⟨_, _, rfl, rfl, rfl⟩

/-! ## Runs -/

/-- A safe event leaves the shortcut right. -/
theorem cached_bridgeStep (h : Nat25.Cached s.toNat25) :
    ∀ e, s.Safe e → ∃ t, s.bridgeStep e = some t ∧ Nat25.Cached t.toNat25
  | .tx env skb, hsafe => by
    obtain ⟨r, hr, hcached, -⟩ := exists_rtwBrClientTx h hsafe
    exact ⟨r.2.2, by rw [bridgeStep, hr]; rfl, hcached⟩
  | .rx env skb, _ => by
    obtain ⟨r, hr, hcached⟩ := exists_nat25HandleFrame env skb h
    exact ⟨r.2.2, by rw [bridgeStep, hr]; rfl, hcached⟩
  | .expire, _ => by
    obtain ⟨db, hdb, hcached⟩ := h.dbExpire
    exact ⟨s.setDb db, by rw [bridgeStep, hdb]; rfl, hcached⟩
  | .cleanup, _ => by
    obtain ⟨db, hdb, hcached⟩ := h.dbCleanup
    exact ⟨s.setDb db, by rw [bridgeStep, hdb]; rfl, hcached⟩
  | .clock jiffies, _ => by
    obtain ⟨C, hC⟩ := h.inv
    exact ⟨_, rfl, ⟨C, hC.chains, hC.used, hC.nodup, hC.bucket, hC.unique, hC.scdb⟩, h.holds⟩

/-- What the shortcut does for a safe event is what the full path does. -/
theorem agrees_of_safe (h : Nat25.Cached s.toNat25) : ∀ e, s.Safe e → s.Agrees e
  | .tx env skb, hsafe => by
    obtain ⟨r, hr, -, hknown⟩ := exists_rtwBrClientTx h hsafe
    exact ⟨r, hr, hknown⟩
  | .rx env skb, hsafe => agrees_rx h hsafe
  | .expire, _ => trivial
  | .cleanup, _ => trivial
  | .clock _, _ => trivial

/-- In every run of safe events the shortcut agrees with the full path at every event. -/
theorem shortcut_run (s : Bridge) (es : List BridgeEvent)
    (hsafe : AlongM bridgeStep Safe (s.setDb s.init) es) :
    AlongM bridgeStep Agrees (s.setDb s.init) es :=
  alongM_of_invariant (I := fun u => Nat25.Cached u.toNat25)
    (fun u e t hu he ht => by
      obtain ⟨v, hv, hcached⟩ := cached_bridgeStep hu e he
      obtain rfl : v = t := Option.some.inj (hv.symm.trans ht)
      exact hcached)
    (fun u e hu he => agrees_of_safe hu e he) (Nat25.cached_init s.toNat25) hsafe

/-! ## A host with two addresses -/

/-- The host sends an IP frame. -/
def sampleTx (ip : IpAddr) : BridgeEvent := .tx sampleEnv (ipFrameFrom sampleHost ip)

/-- The bridge after the first frame of the host. -/
def sampleLearned : Bridge := (sampleBridge.bridgeStep (sampleTx samplePalindrome)).getD sampleBridge

/-- The bridge after the second frame : the shortcut is to the host. -/
def sampleShortcut : Bridge := (sampleLearned.bridgeStep (sampleTx samplePalindrome)).getD sampleBridge

theorem sampleLearned_eq {t : Bridge}
    (ht : sampleBridge.bridgeStep (sampleTx samplePalindrome) = some t) :
    t = sampleLearned := by
  rw [sampleLearned, ht]
  rfl

theorem sampleShortcut_eq {t : Bridge}
    (ht : sampleLearned.bridgeStep (sampleTx samplePalindrome) = some t) :
    t = sampleShortcut := by
  rw [sampleShortcut, ht]
  rfl

/-- The host sends two frames, and a frame is received for it. -/
theorem shortcut_samplePalindrome :
    AlongM bridgeStep Agrees (sampleBridge.setDb sampleBridge.init)
      [sampleTx samplePalindrome, sampleTx samplePalindrome, .rx sampleEnv (Nat25.ipFrameTo samplePalindrome)] := by
  refine shortcut_run sampleBridge _ ⟨⟨fun _ => ⟨?_, ?_, ?_, ?_⟩, ?_⟩, fun t ht => ?_⟩
  · decide +kernel
  · exact fun h => absurd h (by decide +kernel)
  · intro _ a ha
    have hnone : sampleBridge.scdbFindEntry samplePalindrome = some none := by decide +kernel
    exact absurd (hnone.symm.trans ha) nofun
  · exact fun _ => ⟨by decide +kernel, by decide +kernel, 0, by decide +kernel⟩
  · exact fun h => absurd h (by decide +kernel)
  obtain rfl := sampleLearned_eq ht
  refine ⟨⟨fun _ => ⟨?_, ?_, ?_, ?_⟩, ?_⟩, fun t ht => ?_⟩
  · decide +kernel
  · exact fun h => absurd h (by decide +kernel)
  · intro _ a ha
    have hfound : sampleLearned.scdbFindEntry samplePalindrome = some (some 0) := by decide +kernel
    obtain rfl : 0 = a := Option.some.inj (Option.some.inj (hfound.symm.trans ha))
    decide +kernel
  · exact fun hk => absurd ⟨0, by decide +kernel⟩ hk
  · exact fun h => absurd h (by decide +kernel)
  obtain rfl := sampleShortcut_eq ht
  refine ⟨fun _ _ _ _ => ⟨?_, 0, ?_, ?_⟩, fun _ _ => trivial⟩
  · decide +kernel
  · decide +kernel
  · decide +kernel

/-- The third frame of the host has another address, and goes by the shortcut : its address is never
recorded. -/
theorem not_agrees_sampleTx :
    ¬ AlongM bridgeStep Agrees (sampleBridge.setDb sampleBridge.init)
      [sampleTx samplePalindrome, sampleTx samplePalindrome, sampleTx #v[10, 1, 1, 10]] := by
  rintro ⟨-, h⟩
  have hsome : (sampleBridge.bridgeStep (sampleTx samplePalindrome)).isSome = true := by
    decide +kernel
  obtain ⟨t, ht⟩ := Option.isSome_iff_exists.mp hsome
  obtain ⟨-, h⟩ := h t ht
  obtain rfl := sampleLearned_eq ht
  have hsome : (sampleLearned.bridgeStep (sampleTx samplePalindrome)).isSome = true := by
    decide +kernel
  obtain ⟨t, ht⟩ := Option.isSome_iff_exists.mp hsome
  obtain ⟨⟨r, hr, hknown⟩, -⟩ := h t ht
  obtain rfl := sampleShortcut_eq ht
  have hres : ((sampleShortcut.rtwBrClientTx sampleEnv
    (ipFrameFrom sampleHost #v[10, 1, 1, 10])).all fun r =>
      r.1 = 0 ∧ r.2.2.findEntry (nat25GenerateIpv4NetworkAddr #v[10, 1, 1, 10]) = some none) =
      true := by
    decide +kernel
  rw [hr, Option.all_some, decide_eq_true_eq] at hres
  obtain ⟨a, ha⟩ := hknown hres.1 (nat25GenerateIpv4NetworkAddr #v[10, 1, 1, 10])
    (by decide +kernel)
  exact absurd (hres.2.symm.trans ha) nofun

end Bridge

end Rtl8188eu
