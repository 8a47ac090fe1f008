import Caw.Core.Conn
import Caw.Lib.Effect
import Caw.Lib.Text
import Mathlib.Data.List.Sort

/-!
# What the daemon works with

The operations it asks of the system, the messages it sends its clients, and its deadlines.

* `Op`, `Op.Reply`, `SysError`: one operation, what it answers, and how it fails;
* `System`: what stands outside the daemon, with its own state, which decides every answer;
* `Message`: what a client is sent;
* `Timers`: pending deadlines by key, with `Timers.expired`;
* `System.sample`: a system where every operation succeeds.
-/

set_option autoImplicit false

namespace Caw

namespace Daemon

/-! ## The system -/

/-- Identifies a client for as long as the daemon runs. -/
abbrev ClientId : Type := ℕ

/-- A wireless interface as the kernel lists it. -/
structure Interface where
  ifindex : UInt32
  name : String
  /-- It is in station mode. -/
  station : Bool
  wiphy : UInt32
  mac : Option Mac

/-- A radio, and what it does for itself. -/
structure Wiphy where
  index : UInt32
  caps : DeviceCaps

/-- An IPv4 address of an interface. -/
structure Address where
  index : UInt32
  addr : Ipv4Addr
  prefixLen : ℕ

/-- A network interface of any kind. -/
structure Link where
  index : UInt32
  name : String
  mac : Option Mac
  up : Bool
  carrier : Bool
  wireless : Bool

/-- One operation of the system. -/
inductive Op where
  | interfaces
  | wiphys
  | triggerScan (ifindex : UInt32)
  | scanResults (ifindex : UInt32)
  | connect (request : Core.AssocRequest)
  | associate (request : Core.AssocRequest)
  | authenticate (request : Core.AuthRequest)
  | disconnect (ifindex : UInt32) (reason : UInt16)
  | newPairwiseKey (ifindex : UInt32) (key : Core.PairwiseKey)
  | newGroupKey (ifindex : UInt32) (key : Core.GroupKey)
  | setDefaultKey (ifindex : UInt32) (index : UInt8)
  | openEapol (ifindex : UInt32)
  | sendEapol (frame : Bytes)
  | addBroadcastRoute (ifindex : UInt32)
  | addDhcpProbeRoute (ifindex : UInt32)
  | delDhcpProbeRoute (ifindex : UInt32)
  | openDhcp
  | newXid
  | readHostname
  | sendBroadcast (data : Bytes)
  | sendTo (addr : Ipv4Addr) (data : Bytes)
  | addresses
  | delAddress (ifindex : UInt32) (addr : Ipv4Addr) (prefixLen : ℕ)
  | addAddress (ifindex : UInt32) (addr : Ipv4Addr) (prefixLen : ℕ)
  | addDefaultRoute (ifindex : UInt32) (gateway : Ipv4Addr)
  | writeResolvConf (servers : List Ipv4Addr)
  | loadProfiles
  | saveProfile (profile : Profile)
  | deleteProfile (ssid : Bytes)
  | links
  | linkByName (name : String)
  | setUp (ifindex : UInt32) (up : Bool)
  | setPowerSave (ifindex : UInt32) (on : Bool)
  /-- Whether the group database lets a client change anything. -/
  | mayChangeState (client : ClientId)

/-- What an operation answers when it succeeds. -/
def Op.Reply : Op → Type
  | .interfaces => List Interface
  | .wiphys => List Wiphy
  | .scanResults _ => List Bss
  | .newXid => UInt32
  | .readHostname => String
  | .addresses => List Address
  | .loadProfiles => List Profile
  | .deleteProfile _ => Bool
  | .links => List Link
  | .linkByName _ => Option Link
  | .mayChangeState _ => Bool
  | _ => Unit

/-- How an operation fails, as it is shown. -/
structure SysError where
  /-- The kernel's error number. -/
  kernel : Option ℕ
  text : String

/-- `EBUSY`. -/
def ebusy : ℕ := 16

/-- `ENETDOWN`. -/
def enetdown : ℕ := 100

/-- What stands outside the daemon: it answers every operation and every draw as its own state has
it. -/
structure System (S : Platform) where
  World : Type
  call : (op : Op) → World → Except SysError op.Reply × World
  draw : World → Draws S × World

/-! ## Clients -/

/-- One network of a scan, as it is shown. -/
structure NetworkSummary where
  ssid : String
  bssid : String
  signalDbm : Int32
  freqMhz : UInt32
  security : String
  /-- There is a saved profile for it. -/
  known : Bool
deriving DecidableEq

/-- One interface, as it is shown. -/
structure PortSummary where
  name : String
  mac : String
  up : Bool
  carrier : Bool
  wireless : Bool
  addrs : List String
deriving DecidableEq

/-- The connection, as it is shown. -/
structure ConnectionStatus where
  port : String
  ssid : Option String
  state : String
  addrs : List String
deriving DecidableEq

/-- What a client is sent: progress, a prompt, or the response to its request. -/
inductive Message where
  | scanning
  | associating (bssid : String)
  | authenticating
  | configuring
  | connected
  | failed (reason : String)
  | needSecret (token : UInt64) (prompt : String)
  | ok
  | ports (list : List PortSummary)
  | networks (list : List NetworkSummary)
  | status (status : ConnectionStatus)
  | error (message : String)
deriving DecidableEq

/-- The message is the response to a request. -/
def Message.isResponse : Message → Bool
  | .ok | .ports _ | .networks _ | .status _ | .error _ => true
  | _ => false

/-- An address as it is shown. -/
def formatMac (mac : Mac) : String :=
  ":".intercalate (mac.toList.map fun b => String.ofList (Text.hexByte b))

/-! ## Deadlines -/

/-- What a timer belongs to. -/
inductive Key where
  | core (id : Core.TimerId)
  | scan (client : ClientId)
  | autoconnect
  | dhcp (timer : Dhcp.Timer)
deriving DecidableEq

/-- It is a deadline of the core. -/
def Key.isCore : Key → Bool
  | .core _ => true
  | _ => false

/-- It is the deadline of a client's scan. -/
def Key.isScan : Key → Bool
  | .scan _ => true
  | _ => false

/-- Pending deadlines, each with the instant it is due. -/
structure Timers where
  entries : List (Key × ℕ)

namespace Timers

variable (t : Timers)

/-- Arm a key, in place of any earlier arming. -/
def arm (key : Key) (delay now : ℕ) : Timers :=
  if t.entries.any fun e => e.1 = key then
    ⟨t.entries.map fun e => if e.1 = key then (key, now + delay) else e⟩
  else ⟨t.entries ++ [(key, now + delay)]⟩

/-- Cancel a deadline. -/
def cancel (key : Key) : Timers := ⟨t.entries.filter fun e => e.1 ≠ key⟩

/-- Cancel every deadline of a kind. -/
def cancelIf (matching : Key → Bool) : Timers := ⟨t.entries.filter fun e => !matching e.1⟩

theorem cancel_eq (key : Key) : t.cancel key = t.cancelIf fun k => k = key := by
  simp only [cancel, cancelIf, ne_eq, decide_not]

/-- The keys due, soonest first. -/
def expired (now : ℕ) : List Key :=
  ((t.entries.filter fun e => e.2 ≤ now).insertionSort fun a b => a.2 ≤ b.2).map Prod.fst

/-- What is left once they are taken. -/
def unexpired (now : ℕ) : Timers := ⟨t.entries.filter fun e => now < e.2⟩

/-- The deadlines of scans. -/
def scans : List (Key × ℕ) := t.entries.filter fun e => e.1.isScan

theorem scans_cancelIf {matching : Key → Bool} (h : ∀ key, matching key = true → key.isScan = false) :
    (t.cancelIf matching).scans = t.scans := by
  rw [cancelIf, scans, scans, List.filter_filter]
  refine List.filter_congr fun e _ => ?_
  cases hm : matching e.1 with
  | true => simp [h _ hm]
  | false => simp

theorem scans_arm {key : Key} (h : key.isScan = false) (delay now : ℕ) :
    (t.arm key delay now).scans = t.scans := by
  unfold arm
  split_ifs
  · rw [scans, scans]
    induction t.entries with
    | nil => rfl
    | cons e rest ih =>
      rw [List.map_cons, List.filter_cons, List.filter_cons, ih]
      by_cases he : e.1 = key
      · simp [he, h]
      · simp [he]
  · simp [scans, h]

/-- What can be done to timers: an arming, at an instant, or an end to one or to several. -/
inductive Change where
  | arm (key : Key) (delay now : ℕ)
  | cancel (key : Key)
  | cancelIf (matching : Key → Bool)

/-- It arms the key again, or ends its arming. -/
def Change.touches (key : Key) : Change → Bool
  | .arm armed _ _ => armed = key
  | .cancel cancelled => cancelled = key
  | .cancelIf matching => matching key

/-- The timers after a change. -/
def apply (t : Timers) : Change → Timers
  | .arm key delay now => t.arm key delay now
  | .cancel key => t.cancel key
  | .cancelIf matching => t.cancelIf matching

/-- The timers after a list of changes. -/
def applyAll (t : Timers) (changes : List Change) : Timers := changes.foldl apply t

/-- One change leads from these timers to those, and leaves the deadlines of scans alone. -/
structure Sparing (t t' : Timers) : Prop where
  changed : ∃ change, t' = t.apply change
  scans : t'.scans = t.scans

theorem sparing_arm {key : Key} (h : key.isScan = false) (delay now : ℕ) :
    t.Sparing (t.arm key delay now) :=
  ⟨⟨.arm key delay now, rfl⟩, t.scans_arm h delay now⟩

theorem sparing_cancelIf {matching : Key → Bool}
    (h : ∀ key, matching key = true → key.isScan = false) : t.Sparing (t.cancelIf matching) :=
  ⟨⟨.cancelIf matching, rfl⟩, t.scans_cancelIf h⟩

/-- The scans that have a deadline. -/
def scanKeys : List Key := (t.entries.map Prod.fst).filter Key.isScan

theorem scanKeys_eq : t.scanKeys = t.scans.map Prod.fst := List.filter_map

theorem mem_scanKeys {client : ClientId} :
    .scan client ∈ t.scanKeys ↔ ∃ due, (.scan client, due) ∈ t.entries := by
  simp [scanKeys, Key.isScan]

theorem mem_expired {key : Key} {now : ℕ} :
    key ∈ t.expired now ↔ ∃ due ≤ now, (key, due) ∈ t.entries := by
  simp [expired, and_comm]

theorem scanKeys_cancel_scan (client : ClientId) :
    (t.cancel (.scan client)).scanKeys = t.scanKeys.filter fun key => key ≠ .scan client := by
  rw [cancel, scanKeys, scanKeys, List.filter_filter, List.filter_map, List.filter_map,
    List.filter_filter]
  exact congrArg _ (List.filter_congr fun e _ => Bool.and_comm _ _)

theorem scanKeys_arm_scan (client : ClientId) (delay now : ℕ) :
    (t.arm (.scan client) delay now).scanKeys =
      if .scan client ∈ t.scanKeys then t.scanKeys else t.scanKeys ++ [.scan client] := by
  have hany : (t.entries.any fun e => e.1 = .scan client) = true ↔ .scan client ∈ t.scanKeys := by
    simp [scanKeys, Key.isScan]
  unfold arm
  split_ifs with harmed hkey hkey
  · rw [scanKeys, scanKeys, List.map_map]
    refine congrArg _ (List.map_congr_left fun e _ => ?_)
    by_cases he : e.1 = .scan client
    · simp [he]
    · simp [he]
  · exact absurd (hany.mp harmed) hkey
  · exact absurd (hany.mpr hkey) harmed
  · simp [scanKeys, Key.isScan]

theorem scanKeys_unexpired_sublist (now : ℕ) : (t.unexpired now).scanKeys.Sublist t.scanKeys :=
  (List.filter_sublist.map Prod.fst).filter _

theorem nodup_expired {now : ℕ} (h : t.scanKeys.Nodup) :
    ((t.expired now).filter Key.isScan).Nodup := by
  refine (((List.perm_insertionSort _ _).map Prod.fst).filter _).nodup_iff.mpr ?_
  exact ((List.filter_sublist.map Prod.fst).filter _).nodup h

end Timers

/-! ## A sample system -/

/-- What each operation answers where there is one interface and nothing is on disk. -/
def Op.sampleReply : (op : Op) → op.Reply
  | .interfaces =>
    [{ ifindex := 3, name := "wlan0", station := true, wiphy := 0, mac := some (.zero 6) }]
  | .wiphys => []
  | .scanResults _ => []
  | .newXid => (1 : UInt32)
  | .readHostname => ""
  | .addresses => []
  | .loadProfiles => []
  | .deleteProfile _ => true
  | .links => []
  | .linkByName _ => none
  | .mayChangeState _ => true
  | .triggerScan _ | .connect _ | .associate _ | .authenticate _ | .disconnect .. => ()
  | .newPairwiseKey .. | .newGroupKey .. | .setDefaultKey .. | .openEapol _ | .sendEapol _ => ()
  | .addBroadcastRoute _ | .addDhcpProbeRoute _ | .delDhcpProbeRoute _ | .openDhcp => ()
  | .sendBroadcast _ | .sendTo .. | .delAddress .. | .addAddress .. | .addDefaultRoute .. => ()
  | .writeResolvConf _ | .saveProfile _ | .setUp .. | .setPowerSave .. => ()

/-- Every operation succeeds; each scan finds the next list of networks. -/
def System.sample : System .sample where
  World := List (List Bss)
  call op scans := match op with
    | .scanResults _ => (.ok (scans.head?.getD []), scans.tail)
    | op => (.ok op.sampleReply, scans)
  draw scans := (.sample, scans)

end Daemon

end Caw
