import Rtl8188eu.Nat25Db

/-!
# Frames of bridged hosts

`rtw_br_client_tx` learns the network address of a host from what it sends, and writes the address
of the station into the frame. `nat25_handle_frame` writes the address of the host back into what is
received for it. Both go through `nat25_db_handle`, or around it by the shortcut : the station
remembers the last host that sent an IP frame with a known address (`scdb_mac`, `scdb_ip`,
`scdb_entry`).

The key of a record is made of the bytes of the IP address in a frame, but for IP frames the address
is converted to the byte order of the host before (a little-endian one here), so ARP frames and the
shortcut on one side and IP frames on the other have different records.
-/

namespace Rtl8188eu

open HashChains Runs

/-- `enum NAT25_METHOD`. -/
inductive Nat25Method where
  | check
  | insert
  | lookup
  | parse
deriving DecidableEq

/-- A frame of the network stack : its bytes from `data` on. -/
structure Skb where
  mem : Mem
  data : ℤ
  len : ℕ

/-- The IP address stored at `p`. -/
def ipAt (m : Mem) (p : ℤ) : IpAddr := Vector.ofFn fun i => m (p + i)

/-- `ETH_P_IP`. -/
def ethPIp : ℕ := 0x0800
/-- `ETH_P_ARP`. -/
def ethPArp : ℕ := 0x0806
/-- `ETH_P_8021Q`. -/
def ethP8021q : ℕ := 0x8100
/-- `ETH_P_IPX`. -/
def ethPIpx : ℕ := 0x8137
/-- `ETH_P_IPV6`. -/
def ethPIpv6 : ℕ := 0x86dd
/-- `ETH_P_PPP_DISC`. -/
def ethPPppDisc : ℕ := 0x8863
/-- `ETH_P_PPP_SES`. -/
def ethPPppSes : ℕ := 0x8864
/-- `ETH_FRAME_LEN`. -/
def ethFrameLen : ℕ := 1514

namespace Skb

def dst (skb : Skb) : MacAddr := macAt skb.mem skb.data
def src (skb : Skb) : MacAddr := macAt skb.mem (skb.data + 6)
/-- The type of the frame. -/
def protocol (skb : Skb) : ℕ := skb.mem.be16 (skb.data + 12)
/-- `iph->saddr`. -/
def saddr (skb : Skb) : IpAddr := ipAt skb.mem (skb.data + 14 + 12)
/-- `iph->daddr`. -/
def daddr (skb : Skb) : IpAddr := ipAt skb.mem (skb.data + 14 + 16)
/-- The IP header does not end inside of the frame. -/
def malformed (skb : Skb) : Bool := skb.len ≤ ((skb.mem (skb.data + 14)).toNat &&& 0xf) * 4
/-- `ar_hln`. -/
def arHln (skb : Skb) : ℕ := (skb.mem (skb.data + 14 + 4)).toNat
/-- `ar_pln`. -/
def arPln (skb : Skb) : ℕ := (skb.mem (skb.data + 14 + 5)).toNat

/-- Bytes are written `off` bytes behind the start. -/
def write (skb : Skb) (off : ℤ) (bs : List UInt8) : Skb :=
  { skb with mem := skb.mem.write (skb.data + off) bs }

def setDst (skb : Skb) (mac : MacAddr) : Skb := skb.write 0 mac.toList
def setSrc (skb : Skb) (mac : MacAddr) : Skb := skb.write 6 mac.toList

/-- The VLAN tag is taken out. -/
def vlanPull (skb : Skb) : Skb :=
  ⟨skb.mem.write (skb.data + 4) (skb.mem.read skb.data 12), skb.data + 4, skb.len - 4⟩

/-- The VLAN tag is put back. -/
def vlanPush (skb : Skb) (vlanHdr : List UInt8) : Skb :=
  let m := skb.mem.write (skb.data - 4) (skb.mem.read skb.data 12)
  ⟨m.write (skb.data - 4 + 12) ([0x81, 0x00] ++ vlanHdr), skb.data - 4, skb.len + 4⟩

end Skb

/-- `__nat25_generate_ipv6_network_addr`. -/
def nat25GenerateIpv6NetworkAddr (m : Mem) (ip : ℤ) : NetAddr :=
  Vector.ofFn fun i => if i.val = 0 then nat25Ipv6 else m (ip + i.val - 1)

/-- `__nat25_generate_pppoe_network_addr`. -/
def nat25GeneratePppoeNetworkAddr (m : Mem) (acMac sid : ℤ) : NetAddr :=
  Vector.ofFn fun i =>
    if i.val = 0 then nat25Pppoe
    else if i.val < 3 then m (sid + i.val - 1)
    else if i.val < 9 then m (acMac + i.val - 3)
    else 0

/-- The adapter of a station with bridged hosts. -/
structure Bridge extends Nat25 where
  /-- `br_mac`. -/
  brMac : MacAddr
  /-- `br_ip`. -/
  brIp : IpAddr
  /-- `eeprompriv.mac_addr`. -/
  macAddr : MacAddr
  /-- The device is a port of a bridge. -/
  brPort : Bool
  /-- The address of the bridge device, if it is there. -/
  brDev : Option MacAddr
  nat25Disable : Bool
  nat25scDisable : Bool

/-- What the rest of the system does while a frame is handled. -/
structure BridgeEnv where
  /-- What `rtw_malloc` gives. -/
  mem : Option DbAddr
  /-- `skb_copy` works. -/
  copyOk : Bool
  /-- `skb_linearize` works. -/
  linearizeOk : Bool
  /-- What becomes of a frame of the PPPoE discovery phase, which does not use the database. -/
  discovery : ℤ × Skb

namespace Bridge

/-- `netdev_br_init`. -/
def netdevBrInit (s : Bridge) : Bridge :=
  if s.brPort then { s with brMac := s.brDev.getD s.brMac } else s

/-- `__nat25_db_network_insert`, for a frame. -/
def insertDb (s : Bridge) (env : BridgeEnv) (skb : Skb) (key : NetAddr) : Option Bridge :=
  (s.networkInsert skb.src key env.mem).map fun db => { s with toNat25 := db }

/-- `__nat25_db_network_lookup_and_replace`, for a frame. -/
def lookupDb (s : Bridge) (skb : Skb) (key : NetAddr) : Option (Bool × Skb × Bridge) :=
  (s.networkLookupAndReplace key).map fun (found, mac, db) =>
    (found, mac.elim skb skb.setDst, { s with toNat25 := db })

/-- The part of `nat25_db_handle` about IP frames. The bytes of the address are in the order of the
host. -/
def handleIp (s : Bridge) (env : BridgeEnv) (skb : Skb) : Nat25Method → Option (ℤ × Skb × Bridge)
  | .check => some (-1, skb, s)
  | .insert =>
    if skb.malformed then some (-1, skb, s)
    else if skb.saddr = Vector.replicate 4 0 then some (0, skb, s)
    else (s.insertDb env skb (nat25GenerateIpv4NetworkAddr skb.saddr.reverse)).map fun s => (0, skb, s)
  | .lookup =>
    if skb.malformed then some (-1, skb, s)
    else
      (s.lookupDb skb (nat25GenerateIpv4NetworkAddr skb.daddr.reverse)).map fun
        | (true, skb, s) => (0, skb, s)
        | (false, skb, s) =>
          if getElem skb.daddr 3 LiteralIndex.octet3_lt_four = 0xff then (0, skb.setDst bcAddr, s)
          else
            let s := if s.brMac = zeroAddr then s.netdevBrInit else s
            (0, skb.setDst s.brMac, s)
  | .parse => some (-1, skb, s)

/-- The part of `nat25_db_handle` about ARP frames. -/
def handleArp (s : Bridge) (env : BridgeEnv) (skb : Skb) (method : Nat25Method) :
    Option (ℤ × Skb × Bridge) :=
  if skb.mem.be16 (skb.data + 14 + 2) ≠ ethPIp then some (-1, skb, s)
  else
    match method with
    | .check => some (0, skb, s)
    | .insert =>
      let skb := skb.write (14 + 8) s.macAddr.toList
      let sender := ipAt skb.mem (skb.data + 14 + 8 + skb.arHln)
      (s.insertDb env skb (nat25GenerateIpv4NetworkAddr sender)).map fun s => (0, skb, s)
    | .lookup =>
      let target := ipAt skb.mem (skb.data + 14 + 8 + skb.arHln + (skb.arHln + skb.arPln))
      (s.lookupDb skb (nat25GenerateIpv4NetworkAddr target)).map fun (_, skb, s) =>
        (0, skb.write (14 + 8 + (skb.arHln + skb.arPln)) skb.dst.toList, s)
    | .parse => some (-1, skb, s)

/-- The part of `nat25_db_handle` about PPPoE frames. -/
def handlePppoe (s : Bridge) (env : BridgeEnv) (skb : Skb) : Nat25Method → Option (ℤ × Skb × Bridge)
  | .check => some (if skb.mem.be16 (skb.data + 14 + 2) = 0 then 0 else 1, skb, s)
  | .insert =>
    if skb.mem.be16 (skb.data + 14 + 2) = 0 then some (env.discovery.1, env.discovery.2, s)
    else
      (s.insertDb env skb (nat25GeneratePppoeNetworkAddr skb.mem skb.data (skb.data + 14 + 2))).map
        fun s => (0, skb, s)
  | .lookup =>
    -- `PADO_CODE` and `PADS_CODE`
    if skb.mem (skb.data + 14 + 1) = 0x07 ∨ skb.mem (skb.data + 14 + 1) = 0x65 then
      some (env.discovery.1, env.discovery.2, s)
    else if skb.mem.be16 (skb.data + 14 + 2) = 0 then some (-1, skb, s)
    else
      (s.lookupDb skb (nat25GeneratePppoeNetworkAddr skb.mem (skb.data + 6) (skb.data + 14 + 2))).map
        fun (_, skb, s) => (0, skb, s)
  | .parse => some (-1, skb, s)

/-- The part of `nat25_db_handle` about IPv6 frames, without the link-layer addresses of neighbour
discovery. -/
def handleIpv6 (s : Bridge) (env : BridgeEnv) (skb : Skb) (method : Nat25Method) :
    Option (ℤ × Skb × Bridge) :=
  if (skb.len : ℤ) - 14 ≤ 40 then some (-1, skb, s)
  else
    match method with
    | .check => some (if isMcast skb.dst then 0 else -1, skb, s)
    | .insert =>
      if skb.mem.read (skb.data + 14 + 8) 16 = List.replicate 16 0 then some (0, skb, s)
      else
        (s.insertDb env skb (nat25GenerateIpv6NetworkAddr skb.mem (skb.data + 14 + 8))).map
          fun s => (0, skb, s)
    | .lookup =>
      (s.lookupDb skb (nat25GenerateIpv6NetworkAddr skb.mem (skb.data + 14 + 24))).map
        fun (_, skb, s) => (0, skb, s)
    | .parse => some (-1, skb, s)

/-- `nat25_db_handle`. The IPX and AppleTalk frames are not handled by the kernels of today. -/
def nat25DbHandle (s : Bridge) (env : BridgeEnv) (skb : Skb) (method : Nat25Method) :
    Option (ℤ × Skb × Bridge) :=
  if skb.protocol = ethPIp then s.handleIp env skb method
  else if skb.protocol = ethPArp then s.handleArp env skb method
  else if skb.protocol = ethPIpx ∨ skb.protocol ≤ ethFrameLen then some (-1, skb, s)
  else if skb.protocol = ethPPppDisc ∨ skb.protocol = ethPPppSes then s.handlePppoe env skb method
  else if skb.protocol = 0x888e ∨ skb.protocol = 0xe2ae ∨ skb.protocol = 0xe2af then
    match method with
    | .insert | .lookup => some (0, skb, s)
    | .check | .parse => some (-1, skb, s)
  else if skb.protocol = ethPIpv6 then s.handleIpv6 env skb method
  else some (-1, skb, s)

/-- The part of `nat25_handle_frame` about a frame without a VLAN tag. -/
def handleUntagged (s : Bridge) (env : BridgeEnv) (skb : Skb) : Option (ℤ × Skb × Bridge) :=
  if !s.nat25Disable then
    if !s.nat25scDisable ∧ skb.protocol = ethPIp ∧ s.scdbIp = skb.daddr then
      some (0, skb.setDst s.scdbMac, s)
    else s.nat25DbHandle env skb .lookup
  else if (skb.protocol = ethPIp ∧ s.brIp = skb.daddr) ∨
      (skb.protocol = ethPArp ∧ s.brIp = ipAt skb.mem (skb.data + 14 + 24)) then
    s.nat25DbHandle env skb .lookup
  else some (0, skb, s)

/-- `nat25_handle_frame`. -/
def nat25HandleFrame (s : Bridge) (env : BridgeEnv) (skb : Skb) : Option (ℤ × Skb × Bridge) :=
  if isMcast skb.dst then some (0, skb, s)
  else
    let tagged := skb.protocol = ethP8021q
    let vlanHdr := skb.mem.read (skb.data + 14) 2
    (s.handleUntagged env (if tagged then skb.vlanPull else skb)).map fun (ret, skb, s) =>
      (if ret = -1 then -1 else 0, if tagged then skb.vlanPush vlanHdr else skb, s)

/-- The part of `rtw_br_client_tx` behind the shortcut : the frame is learned from, and the address
of the station is written into it. The change of DHCP requests is left out. -/
def clientTxNat25 (s : Bridge) (env : BridgeEnv) (skb : Skb) : Option (ℤ × Skb × Bridge) :=
  (s.nat25DbHandle env skb .check).bind fun (check, skb, s) =>
    if (check = 0 ∧ !env.copyOk) ∨ !env.linearizeOk then some (-1, skb, s)
    else
      (s.nat25DbHandle env skb .insert).map fun (res, skb, s) =>
        if res = -2 then (-1, skb, s)
        else if res < 0 then (0, skb, s)
        else (1, skb.setSrc s.macAddr, s)

/-- `rtw_br_client_tx`. -/
def rtwBrClientTx (s : Bridge) (env : BridgeEnv) (skb : Skb) : Option (ℤ × Skb × Bridge) :=
  if !isMcast skb.dst ∧ s.brPort ∧ skb.src ≠ s.brMac ∧ skb.protocol = ethPIp ∧ s.scdbMac = skb.src ∧
      s.scdbEntry.isSome then
    (s.scdbTx skb.src skb.saddr).map fun (_, db) => (0, skb.setSrc s.macAddr, { s with toNat25 := db })
  else
    let tagged := skb.protocol = ethP8021q
    let vlanHdr := skb.mem.read (skb.data + 14) 2
    let skb := if tagged then skb.vlanPull else skb
    let s := if skb.src = s.brMac ∧ skb.protocol = ethPIp then { s with brIp := skb.saddr } else s
    let push := fun skb : Skb => if tagged then skb.vlanPush vlanHdr else skb
    (if skb.protocol = ethPIp then s.scdbTx skb.src skb.saddr else some (true, s.toNat25)).bind
      fun (doNat25, db) =>
        let s := { s with toNat25 := db }
        if doNat25 then
          (s.clientTxNat25 env skb).map fun (ret, skb, s) =>
            if ret = 1 then (0, push skb, s) else (ret, skb, s)
        else some (0, push (skb.setSrc s.macAddr), s)

end Bridge

end Rtl8188eu
