import Caw.Dot11.Suites
import Caw.Lib.Except
import Caw.Lib.Text

/-!
# DHCP messages

The BOOTP frame, the cookie after its fixed part and the option area behind it.

* `Ipv4Addr`, with `prefixLenFromMask`;
* `DhcpOption`, `decodeInto`, `encodeAll`: the option area;
* `Dhcp.Message`, `Message.decode`, `Message.encode`.
-/

set_option autoImplicit false

namespace Caw

/-- An IPv4 address, as its four octets. -/
abbrev Ipv4Addr : Type := Octets 4

namespace Ipv4Addr

/-- The address 0.0.0.0. -/
def unspecified : Ipv4Addr := Octets.zero 4

/-- The address 255.255.255.255. -/
def broadcast : Ipv4Addr := List.Vector.replicate 4 255

/-- The bits of an address, most significant first. -/
def bits (a : Ipv4Addr) : List Bool :=
  (List.range 32).map fun i => (Bytes.ofBE a.toList).testBit (31 - i)

end Ipv4Addr

namespace Dhcp

/-- The prefix length of a subnet mask; a mask with holes has none. -/
def prefixLenFromMask (mask : Ipv4Addr) : Option ℕ :=
  let len := (mask.bits.takeWhile id).length
  if mask.bits.count true = len then some len else none

/-- The DHCP crate's errors. -/
inductive Error where
  | malformed
  /-- An option the configuration needs was left out. -/
  | incomplete (code : UInt8)
  | nak
deriving DecidableEq

/-! ## Options -/

/-- Option: padding. -/
def optPad : UInt8 := 0
/-- Option: the subnet mask. -/
def optSubnetMask : UInt8 := 1
/-- Option: the routers. -/
def optRouter : UInt8 := 3
/-- Option: the name servers. -/
def optDns : UInt8 := 6
/-- Option: the name of the host. -/
def optHostname : UInt8 := 12
/-- Option: the address asked for. -/
def optRequestedIp : UInt8 := 50
/-- Option: how long a lease is good for. -/
def optLeaseTime : UInt8 := 51
/-- Option: the text fields carry options. -/
def optOverload : UInt8 := 52
/-- Option: the type of the message. -/
def optMessageType : UInt8 := 53
/-- Option: the server meant. -/
def optServerId : UInt8 := 54
/-- Option: the options asked for. -/
def optParamRequest : UInt8 := 55
/-- Option: the time to renewal. -/
def optT1 : UInt8 := 58
/-- Option: the time to rebinding. -/
def optT2 : UInt8 := 59
/-- Option: the client. -/
def optClientId : UInt8 := 61
/-- Option: nothing follows. -/
def optEnd : UInt8 := 255

/-- Option 52: the BOOTP fields that carry options. -/
def overloadFile : UInt8 := 1
/-- The overload bit of the server name field. -/
def overloadSname : UInt8 := 2

/-- Option 53. -/
inductive MessageType where
  | discover
  | offer
  | request
  | decline
  | ack
  | nak
  | release
  | inform
  | other (code : UInt8)
deriving DecidableEq

namespace MessageType

/-- The message type a code stands for. -/
def fromCode (code : UInt8) : MessageType :=
  if code = 1 then discover
  else if code = 2 then offer
  else if code = 3 then request
  else if code = 4 then decline
  else if code = 5 then ack
  else if code = 6 then nak
  else if code = 7 then release
  else if code = 8 then inform
  else other code

/-- The code of a message type. -/
def code : MessageType → UInt8
  | discover => 1
  | offer => 2
  | request => 3
  | decline => 4
  | ack => 5
  | nak => 6
  | release => 7
  | inform => 8
  | other code => code

end MessageType

/-- One decoded option. -/
inductive DhcpOption where
  | subnetMask (mask : Ipv4Addr)
  | router (list : List Ipv4Addr)
  | dns (list : List Ipv4Addr)
  | hostName (name : String)
  | requestedIp (addr : Ipv4Addr)
  | leaseTime (secs : UInt32)
  | messageType (type : MessageType)
  | serverId (addr : Ipv4Addr)
  | parameterRequest (codes : Bytes)
  | t1 (secs : UInt32)
  | t2 (secs : UInt32)
  | clientId (id : Bytes)
  | other (code : UInt8) (data : Bytes)
deriving DecidableEq

/-- One address. -/
def ipv4 (data : Bytes) : Except Error Ipv4Addr :=
  if h : data.length = 4 then .ok ⟨data, h⟩ else .error .malformed

/-- The whole groups of four octets in a string. -/
def chunks4 : Bytes → List Ipv4Addr
  | a :: b :: c :: d :: rest => ⟨[a, b, c, d], rfl⟩ :: chunks4 rest
  | _ => []

/-- One or more addresses. -/
def ipv4List (data : Bytes) : Except Error (List Ipv4Addr) :=
  if data.isEmpty ∨ data.length % 4 ≠ 0 then .error .malformed else .ok (chunks4 data)

/-- The big-endian number in a string. -/
def be32 (data : Bytes) : UInt32 := UInt32.ofNat (Bytes.ofBE data)

/-- A number of exactly four octets. -/
def beU32 (data : Bytes) : Except Error UInt32 :=
  if data.length = 4 then .ok (be32 data) else .error .malformed

namespace DhcpOption

/-- The code of an option. -/
def code : DhcpOption → UInt8
  | subnetMask _ => optSubnetMask
  | router _ => optRouter
  | dns _ => optDns
  | hostName _ => optHostname
  | requestedIp _ => optRequestedIp
  | leaseTime _ => optLeaseTime
  | messageType _ => optMessageType
  | serverId _ => optServerId
  | parameterRequest _ => optParamRequest
  | t1 _ => optT1
  | t2 _ => optT2
  | clientId _ => optClientId
  | other code _ => code

/-- An option from its code and its value. -/
def decode (code : UInt8) (data : Bytes) : Except Error DhcpOption :=
  if code = optSubnetMask then subnetMask <$> ipv4 data
  else if code = optRouter then router <$> ipv4List data
  else if code = optDns then dns <$> ipv4List data
  else if code = optHostname then .ok (hostName (Text.lossy data))
  else if code = optRequestedIp then requestedIp <$> ipv4 data
  else if code = optLeaseTime then leaseTime <$> beU32 data
  else if code = optMessageType then
    match data with
    | [type] => .ok (messageType (MessageType.fromCode type))
    | _ => .error .malformed
  else if code = optServerId then serverId <$> ipv4 data
  else if code = optParamRequest then .ok (parameterRequest data)
  else if code = optT1 then t1 <$> beU32 data
  else if code = optT2 then t2 <$> beU32 data
  else if code = optClientId then .ok (clientId data)
  else .ok (other code data)

end DhcpOption

/-- One option; what does not fit the length octet is cut off. -/
def tlv (code : UInt8) (data : Bytes) : Bytes :=
  let len := min data.length 255
  code :: UInt8.ofNat len :: data.take len

/-- The value octets of an option. -/
def DhcpOption.data : DhcpOption → Bytes
  | .subnetMask a | .requestedIp a | .serverId a => a.toList
  | .router list | .dns list => list.flatMap fun a => a.toList
  | .hostName name => name.toUTF8.toList
  | .leaseTime v | .t1 v | .t2 v => Bytes.toBE 4 v.toNat
  | .messageType type => [type.code]
  | .parameterRequest data | .clientId data | .other _ data => data

/-- The octets of an option. -/
def DhcpOption.encode (o : DhcpOption) : Bytes := tlv o.code o.data

/-- Decode an option area of at most `fuel` octets onto `out`, with the overload bits seen so far.
It stops at the end option, or where the area runs out. -/
def decodeFrom : ℕ → Bytes → List DhcpOption → UInt8 → Except Error (UInt8 × List DhcpOption)
  | 0, _, out, overload => .ok (overload, out)
  | _ + 1, [], out, overload => .ok (overload, out)
  | fuel + 1, code :: rest, out, overload =>
    if code = optPad then decodeFrom fuel rest out overload
    else if code = optEnd then .ok (overload, out)
    else
      match rest with
      | [] => .error .malformed
      | len :: rest =>
        if rest.length < len.toNat then .error .malformed
        else
          let data := rest.take len.toNat
          let after := rest.drop len.toNat
          if code = optOverload then
            match data with
            | [bits] => decodeFrom fuel after out (overload ||| bits)
            | _ => .error .malformed
          else
            match DhcpOption.decode code data with
            | .ok o => decodeFrom fuel after (out ++ [o]) overload
            | .error e => .error e

/-- Decode an option area onto `out`; the overload bits come back with it. -/
def decodeInto (buf : Bytes) (out : List DhcpOption) : Except Error (UInt8 × List DhcpOption) :=
  decodeFrom buf.length buf out 0

/-- Encode an option area, closed by the end option. -/
def encodeAll (options : List DhcpOption) : Bytes := options.flatMap DhcpOption.encode ++ [optEnd]

/-! ## Messages -/

/-- A message to a server. -/
def bootrequest : UInt8 := 1
/-- A message from a server. -/
def bootreply : UInt8 := 2
/-- The hardware type of Ethernet. -/
def htypeEthernet : UInt8 := 1

/-- Ask the server to broadcast its reply. -/
def flagBroadcast : UInt16 := 0x8000

/-- What the option area begins with. -/
def magicCookie : Bytes := [0x63, 0x82, 0x53, 0x63]

/-- Where the server name stands. -/
abbrev offSname : ℕ := 44
/-- Where the file name stands. -/
abbrev offFile : ℕ := 108

/-- End of the BOOTP fixed part, where the cookie begins. -/
abbrev fixedLen : ℕ := 236

/-- Every message is padded to this. -/
abbrev minLen : ℕ := 300

/-- A decoded DHCP message. -/
structure Message where
  op : UInt8
  htype : UInt8
  hlen : UInt8
  hops : UInt8
  xid : UInt32
  secs : UInt16
  flags : UInt16
  ciaddr : Ipv4Addr
  yiaddr : Ipv4Addr
  siaddr : Ipv4Addr
  giaddr : Ipv4Addr
  chaddr : Octets 16
  sname : String
  file : String
  options : List DhcpOption
deriving DecidableEq

/-- A NUL-terminated, NUL-padded text field. -/
def textField (bytes : Bytes) : String := Text.lossy (bytes.takeWhile (· ≠ 0))

/-- A text field of a given width, with room left for its terminating NUL. -/
def textOut (value : String) (width : ℕ) : Bytes :=
  let bytes := value.toUTF8.toList.take (width - 1)
  bytes ++ List.replicate (width - bytes.length) 0

/-- The octets between two offsets. -/
def between (lo hi : ℕ) (buf : Bytes) : Bytes := (buf.take hi).drop lo

namespace Message

/-- An empty client request for `mac`. -/
def request (xid : UInt32) (mac : Mac) : Message where
  op := bootrequest
  htype := htypeEthernet
  hlen := 6
  hops := 0
  xid := xid
  secs := 0
  flags := 0
  ciaddr := .unspecified
  yiaddr := .unspecified
  siaddr := .unspecified
  giaddr := .unspecified
  chaddr := Bytes.slice 0 16 mac.toList
  sname := ""
  file := ""
  options := []

/-- Options in an overloaded field, or the text the field holds. -/
def fieldOr (overloaded : Bool) (field : Bytes) (options : List DhcpOption) :
    Except Error (String × List DhcpOption) :=
  if overloaded then do
    let (_, options) ← decodeInto field options
    return ("", options)
  else return (textField field, options)

/-- `file` is read before `sname`; an overload declared inside an overloaded field is ignored. -/
def decode (buf : Bytes) : Except Error Message :=
  if buf.length < fixedLen + 4 then .error .malformed
  else if between fixedLen (fixedLen + 4) buf ≠ magicCookie then .error .malformed
  else do
    let (overload, options) ← decodeInto (buf.drop (fixedLen + 4)) []
    let (file, options) ← fieldOr (overload &&& overloadFile ≠ 0) (between offFile fixedLen buf) options
    let (sname, options) ← fieldOr (overload &&& overloadSname ≠ 0) (between offSname offFile buf) options
    return {
      op := buf.getD 0 0
      htype := buf.getD 1 0
      hlen := buf.getD 2 0
      hops := buf.getD 3 0
      xid := be32 (Bytes.slice 4 4 buf).toList
      secs := UInt16.ofNat (Bytes.ofBE (Bytes.slice 8 2 buf).toList)
      flags := UInt16.ofNat (Bytes.ofBE (Bytes.slice 10 2 buf).toList)
      ciaddr := Bytes.slice 12 4 buf
      yiaddr := Bytes.slice 16 4 buf
      siaddr := Bytes.slice 20 4 buf
      giaddr := Bytes.slice 24 4 buf
      chaddr := Bytes.slice 28 16 buf
      sname, file, options }

/-- The message before its padding. -/
def unpadded (m : Message) : Bytes :=
  [m.op, m.htype, m.hlen, m.hops] ++ Bytes.toBE 4 m.xid.toNat ++ Bytes.toBE 2 m.secs.toNat ++
    Bytes.toBE 2 m.flags.toNat ++ m.ciaddr.toList ++ m.yiaddr.toList ++ m.siaddr.toList ++
    m.giaddr.toList ++ m.chaddr.toList ++ textOut m.sname (offFile - offSname) ++
    textOut m.file (fixedLen - offFile) ++ magicCookie ++ encodeAll m.options

/-- The octets of a message, padded to the least length. -/
def encode (m : Message) : Bytes :=
  m.unpadded ++ List.replicate (minLen - m.unpadded.length) optPad

/-- The first option with this code. -/
def get (m : Message) (code : UInt8) : Option DhcpOption := m.options.find? fun o => o.code = code

/-- The type of the message, if it has one. -/
def messageType (m : Message) : Option MessageType :=
  m.options.findSome? fun
    | .messageType type => some type
    | _ => none

/-- Option 54: the server the message comes from. -/
def serverId (m : Message) : Option Ipv4Addr :=
  m.options.findSome? fun
    | .serverId addr => some addr
    | _ => none

end Message

end Dhcp

end Caw
