import Mathlib.Data.Set.Finite.Basic
import Rtl8188eu.Nat25Records
import Rtl8188eu.BridgeExt

/-!
# What the bridge learns from a host

A host behind the bridge shows its network address by the IP and ARP frames that it sends, and
`nat25_db_handle` records it (`NAT25_INSERT`), to write the Ethernet address of the host into the IP
and ARP frames for it later (`NAT25_LOOKUP`).

The record that an IP frame makes has the bytes of the IP address in the order of the host, the one
that an ARP frame makes has them in the order of the frame, and so has the one that `scdb_findEntry`
looks for. The record of one kind is found by the other only if the bytes read the same in both
orders, and `learned_iff` says that the hosts with such addresses are exactly the ones that can be
reached after either kind of frame.
-/

namespace Rtl8188eu

open HashChains Runs

namespace Skb

/-- An IP frame of the host with the addresses `mac` and `ip`. -/
def IsIpFrom (skb : Skb) (mac : MacAddr) (ip : IpAddr) : Prop :=
  skb.protocol = ethPIp ∧ skb.malformed = false ∧ skb.src = mac ∧ skb.saddr = ip

/-- An IP frame for `ip`. -/
def IsIpTo (skb : Skb) (ip : IpAddr) : Prop :=
  skb.protocol = ethPIp ∧ skb.malformed = false ∧ skb.daddr = ip

/-- An ARP frame about IP addresses and Ethernet addresses. -/
def IsArp (skb : Skb) : Prop :=
  skb.protocol = ethPArp ∧ skb.mem.be16 (skb.data + 14 + 2) = ethPIp ∧ skb.arHln = 6 ∧ skb.arPln = 4

/-- An ARP frame of the host with the addresses `mac` and `ip`. -/
def IsArpFrom (skb : Skb) (mac : MacAddr) (ip : IpAddr) : Prop :=
  skb.IsArp ∧ skb.src = mac ∧ ipAt skb.mem (skb.data + 14 + 8 + 6) = ip

/-- An ARP frame for `ip`. -/
def IsArpTo (skb : Skb) (ip : IpAddr) : Prop :=
  skb.IsArp ∧ ipAt skb.mem (skb.data + 14 + 8 + 16) = ip

theorem dst_setDst (skb : Skb) (mac : MacAddr) : (skb.setDst mac).dst = mac := by
  have hread := Mem.read_write_self skb.mem skb.data mac.toList
  refine macAt_of_holds ?_
  simpa [setDst, Skb.write, Mem.Holds] using hread

theorem macAt_write {m : Mem} {p q : ℤ} {bs : List UInt8} (h : p + 6 ≤ q ∨ q + bs.length ≤ p) :
    macAt (m.write q bs) p = macAt m p := by
  refine Vector.ext fun i hi => ?_
  simp only [macAt, Vector.getElem_ofFn]
  exact Mem.write_of_disjoint m (by omega)

theorem ipAt_write {m : Mem} {p q : ℤ} {bs : List UInt8} (h : p + 4 ≤ q ∨ q + bs.length ≤ p) :
    ipAt (m.write q bs) p = ipAt m p := by
  refine Vector.ext fun i hi => ?_
  simp only [ipAt, Vector.getElem_ofFn]
  exact Mem.write_of_disjoint m (by omega)

theorem dst_write (skb : Skb) {off : ℤ} (hoff : 6 ≤ off) (bs : List UInt8) :
    (skb.write off bs).dst = skb.dst := macAt_write (by simp only [Skb.write]; omega)

theorem src_write (skb : Skb) {off : ℤ} (hoff : 12 ≤ off) (bs : List UInt8) :
    (skb.write off bs).src = skb.src := macAt_write (by simp only [Skb.write]; omega)

end Skb

/-- The frame by which a host shows its address. -/
inductive Teach where
  | ip
  | arp
deriving DecidableEq

/-- A frame of a host. -/
def Skb.IsFrom (skb : Skb) : Teach → MacAddr → IpAddr → Prop
  | .ip => skb.IsIpFrom
  | .arp => skb.IsArpFrom

/-- The network address of the record that the frame makes. -/
def Teach.key : Teach → IpAddr → NetAddr
  | .ip, addr => nat25GenerateIpv4NetworkAddr addr.reverse
  | .arp, addr => nat25GenerateIpv4NetworkAddr addr

namespace Nat25

/-- The host at `ip` can be reached : its Ethernet address is written into the IP and ARP frames for
it, and the shortcut finds the record `a`. -/
def Reaches (u : Nat25) (ip : IpAddr) (mac : MacAddr) (a : DbAddr) : Prop :=
  (∀ (b : Bridge) (env : BridgeEnv) (skb : Skb), b.toNat25 = u → skb.IsIpTo ip ∨ skb.IsArpTo ip →
    ∃ r, b.nat25DbHandle env skb .lookup = some r ∧ r.2.1.dst = mac) ∧
  u.scdbFindEntry ip = some (some a)

/-- The record `a` has not expired when the event happens, and the event neither empties the
database nor gives its address to another host. -/
def Undisturbed (a : DbAddr) (key : NetAddr) (mac : MacAddr) (s : Nat25) (e : DbEvent) : Prop :=
  s.hasExpired (s.entry a) = false ∧ e ≠ .cleanup ∧ ∀ mac' mem, e = .insert mac' key mem → mac' = mac

/-- There is a record with the network address `key`, and the host can be reached until it
expires. -/
def Learned (t : Nat25) (key : NetAddr) (ip : IpAddr) (mac : MacAddr) : Prop :=
  ∃ a, t.findEntry key = some (some a) ∧ t.hasExpired (t.entry a) = false ∧
    ∀ es u, runM dbStep t es = some u → AlongM dbStep (Undisturbed a key mac) t es →
      u.hasExpired (u.entry a) = false → u.Reaches ip mac a

/-- The frame makes a record : there is one already or there is memory for it. IP frames from the
address zero do not make a record. -/
def Stores (s : Nat25) (kind : Teach) (ip : IpAddr) (mac : MacAddr) (mem : Option DbAddr) : Prop :=
  if kind = .ip ∧ ip = Vector.replicate 4 0 then
    ∃ a, s.findEntry (kind.key ip) = some (some a) ∧ (s.entry a).macAddr = mac ∧
      s.hasExpired (s.entry a) = false
  else s.CanInsert (kind.key ip) mem

variable {s t u : Nat25} {C : Fin 16 → List DbAddr} {key : NetAddr} {mac : MacAddr} {a : DbAddr}
  {ip : IpAddr}

/-- A record that was touched now has not expired. -/
theorem hasExpired_touched (hz : 0 < (300 * s.hz).toInt) {e : Nat25Entry}
    (he : e.ageingTimer = s.jiffies) :
    s.hasExpired e = false := by
  unfold hasExpired timeout
  rw [he]
  have hneg : s.jiffies - 300 * s.hz - s.jiffies = -(300 * s.hz) := by grind
  rw [hneg]
  generalize 300 * s.hz = d at hz
  have hlt : (-d).toInt < 0 := by
    rw [BitVec.toInt_neg, BitVec.toInt_eq_toNat_bmod] at *
    have := d.isLt
    simp only [Int.bmod] at *
    omega
  simpa using hlt

end Nat25

namespace Bridge

variable {s : Bridge} (env : BridgeEnv) {skb : Skb} {key : NetAddr} {mac : MacAddr} {ip : IpAddr}
  {a : DbAddr}

/-- IP frames from the address zero are not learned from. -/
theorem insert_zero (h : skb.IsIpFrom mac (Vector.replicate 4 0)) :
    s.nat25DbHandle env skb .insert = some (0, skb, s) := by
  obtain ⟨hp, hm, -, hsaddr⟩ := h
  rw [nat25DbHandle, if_pos hp, handleIp, hm, if_neg Bool.false_ne_true, if_pos hsaddr]

/-- The other frames are. -/
theorem insert_frame {kind : Teach} (h : skb.IsFrom kind mac ip)
    (hne : ¬ (kind = .ip ∧ ip = Vector.replicate 4 0)) :
    ∃ skb', s.nat25DbHandle env skb .insert =
      (s.networkInsert mac (kind.key ip) env.mem).map fun db =>
        (0, skb', { s with toNat25 := db }) := by
  cases kind with
  | ip =>
    obtain ⟨hp, hm, hsrc, hsaddr⟩ := h
    have hzero : skb.saddr ≠ Vector.replicate 4 0 := fun hz => hne ⟨rfl, hsaddr.symm.trans hz⟩
    refine ⟨skb, ?_⟩
    rw [nat25DbHandle, if_pos hp, handleIp, hm, if_neg Bool.false_ne_true, if_neg hzero, insertDb,
      hsrc, hsaddr,
      Option.map_map]
    rfl
  | arp =>
    obtain ⟨⟨hp, hpro, hhln, -⟩, hsrc, hsender⟩ := h
    have hnip : skb.protocol ≠ ethPIp := by
      rw [hp]
      decide
    have hwsrc : (skb.write (14 + 8) s.macAddr.toList).src = mac := by
      rw [Skb.src_write skb (by omega), hsrc]
    have hwhln : (skb.write (14 + 8) s.macAddr.toList).arHln = 6 := by
      refine Eq.trans ?_ hhln
      exact congrArg UInt8.toNat
        (Mem.write_of_disjoint _ (Or.inl (by simp only [Skb.write]; omega)))
    have hwsender : ipAt (skb.write (14 + 8) s.macAddr.toList).mem
        ((skb.write (14 + 8) s.macAddr.toList).data + 14 + 8 + (6 : ℕ)) = ip := by
      rw [← hsender]
      exact Skb.ipAt_write (Or.inr (by simp [Skb.write]; omega))
    refine ⟨skb.write (14 + 8) s.macAddr.toList, ?_⟩
    rw [nat25DbHandle, if_neg hnip, if_pos hp, handleArp, if_neg (not_not.mpr hpro)]
    dsimp only
    rw [hwhln, hwsender, insertDb, hwsrc, Option.map_map]
    rfl

/-- The address in a record that has not expired is written into a frame. -/
theorem lookupDb_found (skb : Skb) (hf : s.findEntry key = some (some a))
    (hexp : s.hasExpired (s.entry a) = false) :
    ∃ t, s.lookupDb skb key = some (true, skb.setDst (s.entry a).macAddr, t) := by
  unfold lookupDb Nat25.networkLookupAndReplace
  rw [hf]
  simp only [Option.map_some, hexp]
  exact ⟨_, rfl⟩

theorem lookup_ip (h : skb.IsIpTo ip) (hf : s.findEntry (Teach.ip.key ip) = some (some a))
    (hexp : s.hasExpired (s.entry a) = false) :
    ∃ r, s.nat25DbHandle env skb .lookup = some r ∧ r.2.1 = skb.setDst (s.entry a).macAddr := by
  obtain ⟨hp, hm, hdaddr⟩ := h
  obtain ⟨t, ht⟩ := lookupDb_found skb hf hexp
  have hkey : nat25GenerateIpv4NetworkAddr skb.daddr.reverse = Teach.ip.key ip := by
    rw [hdaddr]
    rfl
  rw [nat25DbHandle, if_pos hp, handleIp, hm, if_neg Bool.false_ne_true, hkey, ht]
  exact ⟨_, rfl, rfl⟩

theorem lookup_arp (h : skb.IsArpTo ip) (hf : s.findEntry (Teach.arp.key ip) = some (some a))
    (hexp : s.hasExpired (s.entry a) = false) :
    ∃ r, s.nat25DbHandle env skb .lookup = some r ∧ r.2.1.dst = (s.entry a).macAddr := by
  obtain ⟨⟨hp, hpro, hhln, hpln⟩, htarget⟩ := h
  have hnip : skb.protocol ≠ ethPIp := by
    rw [hp]
    decide
  obtain ⟨t, ht⟩ := lookupDb_found skb hf hexp
  have hkey : nat25GenerateIpv4NetworkAddr
      (ipAt skb.mem (skb.data + 14 + 8 + skb.arHln + (skb.arHln + skb.arPln))) =
        Teach.arp.key ip := by
    rw [hhln, hpln, Teach.key, ← htarget]
    congr 2
    push_cast
    ring
  rw [nat25DbHandle, if_neg hnip, if_pos hp, handleArp, if_neg (not_not.mpr hpro)]
  dsimp only
  rw [hkey, ht]
  refine ⟨_, rfl, ?_⟩
  dsimp only
  rw [Skb.dst_write _ (by omega), Skb.dst_setDst]

end Bridge

namespace Nat25

variable {s t u : Nat25} {C : Fin 16 → List DbAddr} {key : NetAddr} {mac : MacAddr} {a : DbAddr}
  {ip : IpAddr} {es : List DbEvent}

/-- The record of the host is in the table. -/
structure Records (s : Nat25) (a : DbAddr) (key : NetAddr) (mac : MacAddr) : Prop where
  inv : ∃ C, Inv s C
  used : a ∈ s.used
  networkAddr : (s.entry a).networkAddr = key
  macAddr : (s.entry a).macAddr = mac

theorem Records.findEntry (h : Records s a key mac) : s.findEntry key = some (some a) := by
  obtain ⟨C, hC⟩ := h.inv
  exact hC.find_iff.mpr ⟨h.used, h.networkAddr⟩

/-- An event that does not disturb a record leaves its host in it. -/
theorem Records.dbStep (h : Records s a key mac) {e : DbEvent} (he : Undisturbed a key mac s e)
    (ht : s.dbStep e = some t) : Records t a key mac := by
  obtain ⟨C, hC⟩ := h.inv
  obtain ⟨hexp, hcleanup, hinsert⟩ := he
  obtain ⟨v, C', hv, hinv⟩ := inv_dbStep hC e
  obtain rfl : v = t := Option.some.inj (hv.symm.trans ht)
  obtain ⟨hused, hkey, hmac | ⟨mem, hmac⟩⟩ := record_dbStep hC ht h.used hexp hcleanup
  · exact ⟨⟨C', hinv⟩, hused, hkey.trans h.networkAddr, hmac.trans h.macAddr⟩
  · rw [h.networkAddr] at hmac
    exact ⟨⟨C', hinv⟩, hused, hkey.trans h.networkAddr, hinsert _ mem hmac⟩

/-- A record that is not disturbed stays. -/
theorem Records.run (h : Records s a key mac)
    (hes : AlongM Nat25.dbStep (Undisturbed a key mac) s es)
    (hu : runM Nat25.dbStep s es = some u) : Records u a key mac :=
  invariant_alongM (I :=
    fun v => Records v a key mac) (fun _ _ _ hI he ht => hI.dbStep he ht) h hes hu

/-- Where the bytes of the address read the same in both orders, there is one key. -/
theorem Records.reaches (h : Records u a (nat25GenerateIpv4NetworkAddr ip) mac)
    (hip : ip.reverse = ip)
    (hexp : u.hasExpired (u.entry a) = false) : u.Reaches ip mac a := by
  refine ⟨fun b env skb hb hskb => ?_, h.findEntry⟩
  subst hb
  obtain rfl := h.macAddr
  rcases hskb with hskb | hskb
  · have hkey : Teach.ip.key ip = nat25GenerateIpv4NetworkAddr ip := by rw [Teach.key, hip]
    obtain ⟨r, hr, hout⟩ := Bridge.lookup_ip env hskb (hkey ▸ h.findEntry) hexp
    exact ⟨r, hr, by rw [hout, Skb.dst_setDst]⟩
  · exact Bridge.lookup_arp env hskb h.findEntry hexp

/-! ## The hosts that are reached -/

/-- An IP frame for `ip`. -/
def ipFrameTo (ip : IpAddr) : Skb :=
  ⟨Mem.write (Mem.write (fun _ => 0) 12 [0x08, 0x00, 0x45]) 30 ip.toList, 0, 60⟩

theorem isIpTo_ipFrameTo (ip : IpAddr) : (ipFrameTo ip).IsIpTo ip := by
  have hhdr : ∀ p : ℤ, p < 30 → (ipFrameTo ip).mem p = Mem.write (fun _ => 0) 12
    [0x08, 0x00, 0x45] p :=
    fun p hp => Mem.write_of_disjoint _ (Or.inl hp)
  have hdata : (ipFrameTo ip).data = 0 := rfl
  have hlen : (ipFrameTo ip).len = 60 := rfl
  refine ⟨?_, ?_, ?_⟩
  · rw [Skb.protocol, Mem.be16, hdata, hhdr _ (by omega), hhdr _ (by omega)]
    decide
  · rw [Skb.malformed, hdata, hlen, hhdr _ (by omega)]
    decide
  · have hread := Mem.read_write_self (Mem.write (fun _ => 0) 12 [0x08, 0x00, 0x45]) 30 ip.toList
    refine Vector.toList_inj.mp (Eq.trans ?_ hread)
    refine List.ext_getElem (by simp) fun i hi hi' => ?_
    rw [Mem.getElem_read]
    simp [Skb.daddr, ipAt, ipFrameTo]

/-- Another host can be inserted. -/
theorem exists_insert (hs : ∃ C, Inv s C) (mac : MacAddr) (key : NetAddr) :
    ∃ mem t a, s.networkInsert mac key mem = some t ∧ Records t a key mac ∧
      (t.entry a).ageingTimer = s.jiffies := by
  obtain ⟨C, hC⟩ := hs
  obtain ⟨m, hm⟩ := Infinite.exists_notMem_finset s.used.toFinset
  obtain ⟨t, C', ht, hinv⟩ := hC.networkInsert mac key (some m)
  have hcan : s.CanInsert key (some m) := Or.inr ⟨m, by simpa [rtwMalloc] using hm⟩
  obtain ⟨a, ha, hkey, hmac, hage⟩ := hC.inserted ht hcan
  exact ⟨some m, t, a, ht, ⟨⟨C', hinv⟩, ha, hkey, hmac⟩, hage⟩

/-- If the host is reached after the run in which another host takes the other key of the address,
the two keys are one. -/
theorem Learned.reverse_eq_of_arp (h : Learned t (Teach.arp.key ip) ip mac) (ht : ∃ C, Inv t C)
    (hz : 0 < (300 * t.hz).toInt) : ip.reverse = ip := by
  obtain ⟨a, hf, hexp, hall⟩ := h
  obtain ⟨C, hC⟩ := ht
  obtain ⟨hused, hkey⟩ := hC.find_iff.mp hf
  by_contra hne
  have hkeys : Teach.arp.key ip ≠ Teach.ip.key ip := fun he =>
    hne (nat25GenerateIpv4NetworkAddr_inj he).symm
  obtain ⟨mac', hmac'⟩ : ∃ mac' : MacAddr, mac' ≠ mac := by
    rcases eq_or_ne zeroAddr mac with rfl | hzero
    · exact ⟨bcAddr, by decide⟩
    · exact ⟨zeroAddr, hzero⟩
  obtain ⟨mem, u, b, hu, hb, hage⟩ := exists_insert ⟨C, hC⟩ mac' (Teach.ip.key ip)
  obtain ⟨hj, hhz, -⟩ := networkInsert_frame hu
  have hclock : ∀ e, u.hasExpired e = t.hasExpired e := fun e => by
    unfold hasExpired timeout
    rw [hj, hhz]
  have hrun : runM dbStep t [.insert mac' (Teach.ip.key ip) mem] = some u := by
    simp [runM, dbStep, hu]
  have hundisturbed : AlongM dbStep (Undisturbed a (Teach.arp.key ip) mac) t
      [.insert mac' (Teach.ip.key ip) mem] := by
    refine ⟨⟨hexp, (fun he => by cases he), fun mac'' mem' he => ?_⟩, fun _ _ => trivial⟩
    obtain ⟨-, hk, -⟩ := DbEvent.insert.inj he
    exact absurd hk.symm hkeys
  have hsame : u.entry a = t.entry a := by
    obtain ⟨-, hsame | ⟨hk, -⟩⟩ := hC.insert_record hu hused
    · exact hsame
    · exact absurd (hkey.symm.trans hk) hkeys
  obtain ⟨hreach, -⟩ := hall _ u hrun hundisturbed (by rw [hclock, hsame, hexp])
  -- the IP frame for the host goes to the other one
  have hbexp : u.hasExpired (u.entry b) = false :=
    hasExpired_touched (hhz ▸ hz) (hage.trans hj.symm)
  let bridge : Bridge := ⟨u, zeroAddr, ip, zeroAddr, true, none, false, false⟩
  let env : BridgeEnv := ⟨none, true, true, 0, ipFrameTo ip⟩
  obtain ⟨r, hr, hdst⟩ := hreach bridge env (ipFrameTo ip) rfl (Or.inl (isIpTo_ipFrameTo ip))
  obtain ⟨r', hr', hout⟩ :=
    Bridge.lookup_ip (s := bridge) env (isIpTo_ipFrameTo ip) hb.findEntry hbexp
  obtain rfl : r = r' := Option.some.inj (hr.symm.trans hr')
  rw [hout, Skb.dst_setDst] at hdst
  exact hmac' (hb.macAddr.symm.trans hdst)

/-- A host that is reached after either kind of frame has an address that reads the same in both
orders. -/
theorem Learned.reverse_eq {kind : Teach} (h : Learned t (kind.key ip) ip mac) (ht : ∃ C, Inv t C)
    (hz : 0 < (300 * t.hz).toInt) : ip.reverse = ip := by
  cases kind with
  | arp => exact h.reverse_eq_of_arp ht hz
  | ip =>
    obtain ⟨a, hf, hexp, hall⟩ := h
    obtain ⟨C, hC⟩ := ht
    obtain ⟨-, hscdb⟩ := hall [] t rfl trivial hexp
    have hkey := (hC.find_iff.mp hf).2
    have hkey' := (hC.find_iff.mp hscdb).2
    exact nat25GenerateIpv4NetworkAddr_inj (hkey.symm.trans hkey')

/-- After a run the database is sound, and the clock ticks as at its start. -/
theorem exists_inv_run {s₀ : Nat25} (hs : runM dbStep s₀.init es = some s) : ∃ C, Inv s C := by
  obtain ⟨t, ht, hC⟩ := exists_runM (I := fun s => ∃ C, Inv s C)
    (fun u e ⟨_, hu⟩ => by
      obtain ⟨v, C', hv, hinv⟩ := inv_dbStep hu e
      exact ⟨v, hv, C', hinv⟩) es ⟨_, inv_init s₀⟩
  obtain rfl : t = s := Option.some.inj (ht.symm.trans hs)
  exact hC

end Nat25

open Nat25 in
/-- `NAT25_INSERT` of a frame from a host makes the host reachable, until its record expires,
exactly when the record is stored and the bytes of the IP address read the same in both orders. -/
theorem learned_iff {s₀ : Nat25} {es : List DbEvent} {s : Bridge} (hs : runM dbStep s₀.init es = some s.toNat25)
    (hz : 0 < (300 * s.hz).toInt) {kind : Teach} {mac : MacAddr} {ip : IpAddr} {skb : Skb}
    (hskb : skb.IsFrom kind mac ip) (env : BridgeEnv) :
    ∃ r, s.nat25DbHandle env skb .insert = some r ∧
      (r.2.2.Learned (kind.key ip) ip mac ↔ s.Stores kind ip mac env.mem ∧ ip.reverse = ip) := by
  obtain ⟨C, hC⟩ := exists_inv_run hs
  -- a record of the host is enough if there is one key only
  have hlearned : ∀ {t : Nat25} {a : DbAddr}, ip.reverse = ip → Records t a (kind.key ip) mac →
      t.hasExpired (t.entry a) = false → t.Learned (kind.key ip) ip mac := by
    intro t a hip hrec hexp
    refine ⟨a, hrec.findEntry, hexp, fun es u hu hes hexpu => ?_⟩
    have hrecu := hrec.run hes hu
    have hkey : kind.key ip = nat25GenerateIpv4NetworkAddr ip := by
      cases kind with
      | ip => rw [Teach.key, hip]
      | arp => rfl
    rw [hkey] at hrecu
    exact hrecu.reaches hip hexpu
  by_cases hzero : kind = .ip ∧ ip = Vector.replicate 4 0
  · have hskip : s.nat25DbHandle env skb .insert = some (0, skb, s) := by
      obtain ⟨rfl, rfl⟩ := hzero
      exact Bridge.insert_zero env hskb
    refine ⟨_, hskip, ?_⟩
    rw [Stores, if_pos hzero]
    have hip : ip.reverse = ip := by
      rw [hzero.2, Vector.reverse_replicate]
    constructor
    · rintro ⟨a, hf, hexp, hall⟩
      obtain ⟨hreach, hscdb⟩ := hall [] s.toNat25 rfl trivial hexp
      refine ⟨⟨a, hf, ?_, hexp⟩, hip⟩
      have hkey : kind.key ip = Teach.ip.key ip := by rw [hzero.1]
      obtain ⟨r, hr, hdst⟩ := hreach s env (ipFrameTo ip) rfl (Or.inl (isIpTo_ipFrameTo ip))
      obtain ⟨r', hr', hout⟩ := Bridge.lookup_ip env (isIpTo_ipFrameTo ip) (hkey ▸ hf) hexp
      obtain rfl : r = r' := Option.some.inj (hr.symm.trans hr')
      rwa [hout, Skb.dst_setDst] at hdst
    · rintro ⟨⟨a, hf, hmac, hexp⟩, -⟩
      obtain ⟨hused, hkey⟩ := hC.find_iff.mp hf
      exact hlearned hip ⟨⟨C, hC⟩, hused, hkey, hmac⟩ hexp
  · obtain ⟨skb', hinsert⟩ := Bridge.insert_frame (s := s) env hskb hzero
    obtain ⟨t, C', ht, hinv⟩ := hC.networkInsert mac (kind.key ip) env.mem
    obtain ⟨hj, hhz, -⟩ := networkInsert_frame ht
    rw [ht] at hinsert
    refine ⟨_, hinsert, ?_⟩
    rw [Stores, if_neg hzero]
    constructor
    · intro hl
      refine ⟨?_, hl.reverse_eq ⟨C', hinv⟩ (hhz ▸ hz)⟩
      obtain ⟨a, hf, -⟩ := hl
      obtain ⟨b, hb, -⟩ | ⟨-, b, hb, -⟩ | ⟨hnone, -, hts⟩ := networkInsert_cases ht
      · exact Or.inl ⟨b, hb⟩
      · exact Or.inr ⟨b, hb⟩
      · have hf : t.findEntry (kind.key ip) = some (some a) := hf
        rw [hts, hnone] at hf
        cases hf
    · rintro ⟨hcan, hip⟩
      obtain ⟨a, ha, hkey, hmac, hage⟩ := hC.inserted ht hcan
      exact hlearned hip ⟨⟨C', hinv⟩, ha, hkey, hmac⟩
        (hasExpired_touched (hhz ▸ hz) (hage.trans hj.symm))

/-! ## Two hosts -/

/-- A station with a bridge that has not learned anything. -/
def sampleBridge : Bridge where
  toNat25 := Nat25.init ⟨⟨fun _ => none, fun _ => none, fun _ => none⟩,
    fun _ => ⟨0, zeroAddr, 0, Vector.replicate 17 0⟩, [], 1000, 100, zeroAddr, Vector.replicate 4 0, none⟩
  brMac := localAddr 1
  brIp := Vector.replicate 4 0
  macAddr := localAddr 2
  brPort := true
  brDev := none
  nat25Disable := false
  nat25scDisable := false

/-- An IP frame from `ip`. -/
def ipFrameFrom (mac : MacAddr) (ip : IpAddr) : Skb :=
  ⟨Mem.write (fun _ => 0) 6 (mac.toList ++ [0x08, 0x00, 0x45, 0, 0, 0, 0, 0, 0, 0, 0, 0, 0, 0] ++ ip.toList), 0, 60⟩

/-- There is memory. -/
def sampleEnv : BridgeEnv := ⟨some 0, true, true, 0, ⟨fun _ => 0, 0, 0⟩⟩

def sampleHost : MacAddr := localAddr 3

/-- The address of a host that reads the same in both orders. -/
def samplePalindrome : IpAddr := #v[10, 0, 0, 10]

/-- The address of a host that does not. -/
def sampleIp : IpAddr := #v[192, 168, 0, 2]

theorem sampleIp_reverse : sampleIp.reverse ≠ sampleIp := fun h => by
  have h0 := congrArg (fun v : IpAddr => v[0]) h
  simp [sampleIp] at h0

theorem samplePalindrome_reverse : samplePalindrome.reverse = samplePalindrome := by
  simp [samplePalindrome]

theorem isFrom_ipFrameFrom_sampleIp :
    (ipFrameFrom sampleHost sampleIp).IsFrom .ip sampleHost sampleIp := by
  refine ⟨?_, ?_, ?_, ?_⟩ <;> decide +kernel

theorem learned_samplePalindrome :
    ∃ r, sampleBridge.nat25DbHandle sampleEnv (ipFrameFrom sampleHost samplePalindrome) .insert = some r ∧
      r.2.2.Learned (Teach.ip.key samplePalindrome) samplePalindrome sampleHost := by
  have hskb : (ipFrameFrom sampleHost samplePalindrome).IsFrom .ip sampleHost samplePalindrome := by
    refine ⟨?_, ?_, ?_, ?_⟩ <;> decide +kernel
  have hstores : sampleBridge.Stores .ip samplePalindrome sampleHost sampleEnv.mem := by
    rw [Nat25.Stores, if_neg (by decide +kernel)]
    exact Or.inr ⟨0, by decide⟩
  obtain ⟨r, hr, hiff⟩ := learned_iff (s := sampleBridge)
    (show runM Nat25.dbStep (Nat25.init _) [] = some _ from rfl) (by decide) hskb sampleEnv
  exact ⟨r, hr, hiff.mpr ⟨hstores, samplePalindrome_reverse⟩⟩

/-- The host with the address 192.168.0.2 is recorded from its IP frame, but `scdb_findEntry` does
not find the record. -/
theorem not_learned_sampleIp : sampleBridge.Stores .ip sampleIp sampleHost sampleEnv.mem ∧
    ∃ r, sampleBridge.nat25DbHandle sampleEnv (ipFrameFrom sampleHost sampleIp) .insert = some r ∧
      (∃ a, r.2.2.findEntry (Teach.ip.key sampleIp) = some (some a) ∧
        r.2.2.hasExpired (r.2.2.entry a) = false) ∧
      r.2.2.scdbFindEntry sampleIp = some none ∧
      ¬ r.2.2.Learned (Teach.ip.key sampleIp) sampleIp sampleHost := by
  have hne : ¬ (Teach.ip = .ip ∧ sampleIp = Vector.replicate 4 0) := by decide +kernel
  have hcan : sampleBridge.CanInsert (Teach.ip.key sampleIp) sampleEnv.mem := Or.inr ⟨0, by decide⟩
  have hinv : Nat25.Inv sampleBridge.toNat25 fun _ => [] := Nat25.inv_init _
  obtain ⟨skb', hinsert⟩ := Bridge.insert_frame (s := sampleBridge) sampleEnv
    isFrom_ipFrameFrom_sampleIp hne
  obtain ⟨t, C, ht, hC⟩ := hinv.networkInsert sampleHost (Teach.ip.key sampleIp) sampleEnv.mem
  obtain ⟨a, ha, hkey, -, hage⟩ := hinv.inserted ht hcan
  obtain ⟨hj, hhz, -⟩ := Nat25.networkInsert_frame ht
  have hz : 0 < (300 * t.hz).toInt := by
    rw [hhz]
    decide
  have hexp : t.hasExpired (t.entry a) = false := Nat25.hasExpired_touched hz (hage.trans hj.symm)
  rw [ht] at hinsert
  refine ⟨?_, _, hinsert, ⟨a, hC.find_iff.mpr ⟨ha, hkey⟩, hexp⟩, ?_, fun hl => ?_⟩
  · rw [Nat25.Stores, if_neg hne]
    exact hcan
  · -- the one record has the bytes in the other order
    obtain hnone | ⟨b, hb⟩ := hC.find_cases (nat25GenerateIpv4NetworkAddr sampleIp)
    · exact hnone
    · obtain ⟨hbused, hbkey⟩ := hC.find_iff.mp hb
      obtain ⟨c, hf, -⟩ | ⟨-, c, -, rfl⟩ | ⟨-, hm, -⟩ := Nat25.networkInsert_cases ht
      · cases hf
      · obtain rfl : b = c := by
          simpa [Nat25.linkEntry, sampleBridge, Nat25.init] using hbused
        have hbkey' : Teach.ip.key sampleIp = nat25GenerateIpv4NetworkAddr sampleIp := by
          simpa [Nat25.linkEntry] using hbkey
        exact absurd (Nat25.nat25GenerateIpv4NetworkAddr_inj hbkey') sampleIp_reverse
      · cases hm
  · exact sampleIp_reverse (hl.reverse_eq ⟨C, hC⟩ hz)

end Rtl8188eu
