import Caw.Dot11.Suites

/-!
# Notifications of the kernel's wireless stack

The attribute stream of a generic-netlink message, and the notification it holds.

* `Nl80211.attrs`, `Nl80211.find`: the attributes of a message body;
* `Nl80211.Event`, `Nl80211.Event.decode`;
* `Nl80211.ifindexOf`: the interface a notification is about.
-/

set_option autoImplicit false

namespace Caw

namespace Nl80211

/-- Command: there are results of a scan. -/
def cmdNewScanResults : UInt8 := 34
/-- Command: a scan was given up. -/
def cmdScanAborted : UInt8 := 35
/-- Command: the end of an authentication. -/
def cmdAuthenticate : UInt8 := 37
/-- Command: the end of an association. -/
def cmdConnect : UInt8 := 46
/-- Command: the link is lost. -/
def cmdDisconnect : UInt8 := 48
/-- Command: a frame has arrived. -/
def cmdFrame : UInt8 := 59
/-- Command: user space is to authenticate. -/
def cmdExternalAuth : UInt8 := 127

/-- Attribute: the radio. -/
def attrWiphy : ℕ := 1
/-- Attribute: the interface. -/
def attrIfindex : ℕ := 3
/-- Attribute: an address. -/
def attrMac : ℕ := 6
/-- Attribute: a frame. -/
def attrFrame : ℕ := 51
/-- Attribute: the SSID. -/
def attrSsid : ℕ := 52
/-- Attribute: why a link was lost. -/
def attrReasonCode : ℕ := 54
/-- Attribute: no answer has come. -/
def attrTimedOut : ℕ := 65
/-- Attribute: the access point has ended the link. -/
def attrDisconnectedByAp : ℕ := 71
/-- Attribute: how an association ended. -/
def attrStatusCode : ℕ := 72
/-- Attribute: the access point. -/
def attrBssid : ℕ := 245
/-- Attribute: what is asked of user space. -/
def attrExternalAuthAction : ℕ := 260

/-- User space is to give up. -/
def externalAuthAbort : UInt32 := 1

/-! ## Attributes -/

/-- Length of the generic-netlink header in front of the attributes. -/
abbrev genlHdrlen : ℕ := 4

/-- Length of an attribute's own header. -/
abbrev attrHdrLen : ℕ := 4

/-- Netlink pads every attribute to four octets. -/
def align (len : ℕ) : ℕ := (len + 3) / 4 * 4

/-- The two flags in the high bits of an attribute type are masked off. -/
def typeMask (kind : ℕ) : ℕ := kind % 16384

/-- An attribute, its type and its value. -/
structure Attr where
  kind : ℕ
  payload : Bytes

/-- The attributes of a stream of at most `fuel` octets, up to the first malformed one. -/
def attrsFrom : ℕ → Bytes → List Attr
  | fuel + 1, l0 :: l1 :: k0 :: k1 :: rest =>
    let len := Bytes.ofLE [l0, l1]
    if len < attrHdrLen ∨ attrHdrLen + rest.length < len then []
    else
      { kind := typeMask (Bytes.ofLE [k0, k1]), payload := rest.take (len - attrHdrLen) } ::
        attrsFrom fuel (rest.drop (align len - attrHdrLen))
  | _, _ => []

/-- The attributes of a message body. -/
def attrs (body : Bytes) : List Attr :=
  let stream := body.drop genlHdrlen
  attrsFrom stream.length stream

/-- The first attribute of a type, as its payload. -/
def find (body : Bytes) (kind : ℕ) : Option Bytes :=
  ((attrs body).find? fun a => a.kind = kind).map Attr.payload

/-- The leading `n` octets of a payload as a little-endian number. -/
def leOf (n : ℕ) (payload : Bytes) : Option ℕ :=
  if payload.length < n then none else some (Bytes.ofLE (payload.take n))

/-- A value of two octets, least first. -/
def u16Of (payload : Bytes) : Option UInt16 := (leOf 2 payload).map UInt16.ofNat

/-- A value of four octets, least first. -/
def u32Of (payload : Bytes) : Option UInt32 := (leOf 4 payload).map UInt32.ofNat

/-- A value that begins with an address. -/
def macOf (payload : Bytes) : Option Mac :=
  if payload.length < 6 then none else some (Bytes.slice 0 6 payload)

/-- The interface a notification is about. -/
def ifindexOf (body : Bytes) : Option UInt32 := (find body attrIfindex).bind u32Of

/-! ## Events -/

/-- How an association attempt ended. -/
inductive ConnectStatus where
  | success
  | refused (code : UInt16)
  | timedOut
deriving DecidableEq

/-- Events the kernel pushes. -/
inductive Event where
  | scanComplete (wiphy ifindex : UInt32)
  | scanAborted (wiphy ifindex : UInt32)
  | connected (bssid : Option Mac) (status : ConnectStatus)
  | disconnected (reason : UInt16) (byAp : Bool)
  | externalAuth (bssid : Mac) (ssid : Bytes) (abort : Bool)
  | frame (bytes : Bytes)
  | authenticate (frame : Bytes)
  | authTimedOut
deriving DecidableEq

/-- A missing status code is success, unless the attempt timed out. -/
def connectStatus (body : Bytes) : ConnectStatus :=
  if (find body attrTimedOut).isSome then .timedOut
  else
    match (find body attrStatusCode).bind u16Of with
    | none => .success
    | some code => if code = 0 then .success else .refused code

/-- Decode one notification, from the generic-netlink header onwards. -/
def Event.decode (body : Bytes) : Option Event :=
  match body.head? with
  | none => none
  | some cmd =>
    if cmd = cmdNewScanResults ∨ cmd = cmdScanAborted then
      let wiphy := ((find body attrWiphy).bind u32Of).getD 0
      let ifindex := (ifindexOf body).getD 0
      if cmd = cmdNewScanResults then some (.scanComplete wiphy ifindex)
      else some (.scanAborted wiphy ifindex)
    else if cmd = cmdConnect then
      some (.connected ((find body attrMac).bind macOf) (connectStatus body))
    else if cmd = cmdDisconnect then
      some (.disconnected (((find body attrReasonCode).bind u16Of).getD 0)
        (find body attrDisconnectedByAp).isSome)
    else if cmd = cmdExternalAuth then
      match (find body attrBssid).bind macOf, find body attrSsid with
      | some bssid, some ssid => some (.externalAuth bssid ssid
          ((find body attrExternalAuthAction).bind u32Of = some externalAuthAbort))
      | _, _ => none
    else if cmd = cmdFrame then (find body attrFrame).map .frame
    else if cmd = cmdAuthenticate then
      if (find body attrTimedOut).isSome then some .authTimedOut
      else (find body attrFrame).map .authenticate
    else none

end Nl80211

end Caw
