import Caw.Eapol.Replay

/-!
# A run against an honest authenticator

The handshake on a link that loses frames and keeps their order, with an authenticator that counts
upwards, may repeat message 1 or renew its ANonce, and sends message 3 once a message 2 verified.

* `Authenticator.padded`, `Association.wrapped`: the Key Data of message 3;
* `Association.recvMsg2`: the checks an authenticator makes of a message 2;
* `Link`, `Move`, `Association.step`: both sides and the frames in flight between them;
* `Association.Honest`: counters increase and the station is not left alone too long;
* `Association.Agree`: the invariant of such a run, with one lemma for each move;
* **`Association.honest_run`**: no poll fails, a delivered message 1 is answered, every message 2
  verifies, and message 3 completes the handshake with the authenticator's keys.
-/

set_option autoImplicit false

namespace Caw

open FourWay (Action sends installs)
open Machine (Entry entry log exec Along)

/-- The Secure bit: a key is installed. -/
def KeyInfo.secure (k : KeyInfo) : Bool := k.bits &&& KeyInfo.SECURE != 0

namespace Authenticator

/-- The padding of the key wrap: a 0xDD octet, then zeros up to a multiple of eight and at least
sixteen octets. -/
def padded (data : Bytes) : Bytes :=
  if data.length < 16 ∨ data.length % 8 ≠ 0 then
    data ++ 0xdd :: List.replicate (max 16 ((data.length + 8) / 8 * 8) - (data.length + 1)) 0
  else data

theorem padded_append (data : Bytes) : ∃ pad, padded data = data ++ pad := by
  unfold padded
  split_ifs
  · exact ⟨_, rfl⟩
  · exact ⟨[], (List.append_nil _).symm⟩

theorem length_padded (data : Bytes) :
    16 ≤ (padded data).length ∧ (padded data).length % 8 = 0 ∧
      (padded data).length ≤ data.length + 16 := by
  unfold padded
  split_ifs with h
  · simp only [List.length_append, List.length_cons, List.length_replicate]
    omega
  · omega

theorem msg1_version_of {version : KeyDescriptorVersion} {akm : Akm}
    (h : KeyDescriptorVersion.fromKeyInfoFor version.bits akm = .ok version) :
    (msg1Info version).version akm = .ok version := by
  have hbits : (msg1Info version).bits &&& 0x0007 = version.bits &&& 0x0007 := by
    cases version <;> decide
  rw [KeyInfo.version, KeyDescriptorVersion.fromKeyInfoFor, KeyDescriptorVersion.fromKeyInfo,
    hbits, Eapol.liftCrypto_eq_ok]
  exact h

end Authenticator

/-! ## Both sides -/

/-- One association as both sides know it, and what its authenticator hands out. -/
structure Association (P : Primitives) where
  pmk : Pmk
  config : Config
  snonce : Octets 32
  version : KeyDescriptorVersion
  gtk : Bytes
  gtkIndex : UInt8
  rsnBody : Bytes
  /-- The key wrap of the authenticator's crypto library. -/
  wrapKey : Octets 16 → Bytes → Bytes
  derives : ∃ hash, ptkHash config.akm = .ok hash
  speaks : KeyDescriptorVersion.fromKeyInfoFor version.bits config.akm = .ok version
  gtkLength : gtk.length = 16 ∨ gtk.length = 32
  rsnLength : 0 < rsnBody.length ∧ rsnBody.length < 256
  beacon : config.beaconRsnIe = eidRsn :: UInt8.ofNat rsnBody.length :: rsnBody
  unwraps : ∀ kek data, 16 ≤ data.length → data.length % 8 = 0 →
    unwrapKeyData P kek (wrapKey kek data) = .ok data

/-- The counter and the ANonce of one message 1. -/
structure Hello where
  counter : UInt64
  anonce : Octets 32
deriving DecidableEq

/-- The authenticator: its ANonce, the last counter it used, the counters of the message 1s sent
with this ANonce, and the PTK once a message 2 verified. -/
structure Authenticator where
  anonce : Octets 32
  counter : Option UInt64
  outstanding : List UInt64
  ptk : Option Ptk

/-- A frame of the authenticator in flight. -/
inductive Sent where
  | msg1 (hello : Hello)
  | msg3 (counter : UInt64) (anonce : Octets 32) (ptk : Ptk)

/-- The replay counter it went out with. -/
def Sent.counter : Sent → UInt64
  | msg1 hello => hello.counter
  | msg3 counter _ _ => counter

/-- The two sides, the frames in flight to the station and those it has sent, the message 1 it
answered last, the keys handed over since, and the timeouts since the last frame it received. -/
structure Link where
  station : FourWay
  ap : Authenticator
  down : List Sent
  up : List Bytes
  answered : Option Hello
  installed : List Keys
  timeouts : ℕ

/-- What can happen on the link. -/
inductive Move where
  | msg1 (hello : Hello)
  /-- One of the frames the station has sent reaches the authenticator. -/
  | msg2 (index : ℕ)
  | msg3 (counter : UInt64)
  | deliver
  | lose
  | timeout

namespace Association

variable {P : Primitives} (a : Association P)

/-- The PTK of an ANonce, as the authenticator derives it from the nonce of message 2. -/
def ptkOf (anonce snonce : Octets 32) : Except Crypto.Error Ptk :=
  derivePtk P a.pmk a.config.akm a.config.bssid a.config.ownMac anonce snonce

/-- The group key as the station learns it. -/
def groupKey : Gtk := { key := a.gtk, index := a.gtkIndex &&& 0x03 }

/-- The Key Data of message 3: the RSN element and the GTK, padded for the wrap. -/
def keyData : Bytes :=
  Authenticator.padded (a.config.beaconRsnIe ++ Authenticator.gtkKdeBytes a.gtkIndex a.gtk)

/-- The Key Data as it goes on the air. -/
def wrapped (ptk : Ptk) : Bytes := a.wrapKey ptk.kek a.keyData

/-- A frame as it goes on the air. -/
def bytes : Sent → Bytes
  | .msg1 hello => Authenticator.msg1 a.version hello.counter hello.anonce
  | .msg3 counter anonce ptk =>
    Authenticator.msg3 P a.version counter anonce ptk.kck (a.wrapped ptk)

variable (P) in
/-- The MIC of a frame as an authenticator recomputes it: over the frame with the field zeroed. -/
def micOf (frame : Bytes) (kck : Octets 16) (version : KeyDescriptorVersion) : Octets micLen :=
  computeMic P kck version (Bytes.splice 81 (List.replicate 16 0) frame)

/-- Check a message 2 against a message 1 and learn the PTK and the station's RSN element. -/
def recvMsg2 (counter : UInt64) (anonce : Octets 32) (frame : Bytes) : Option (Ptk × Bytes) := do
  let eapol ← (Eapol.parse frame).toOption
  guard (eapol.packetType = .key)
  let msg2 ← (KeyFrame.parse eapol.body).toOption
  guard (msg2.keyInfo.pairwise ∧ msg2.keyInfo.mic ∧ !msg2.keyInfo.ack ∧ !msg2.keyInfo.secure)
  guard (msg2.keyLength = 0 ∧ msg2.replayCounter = counter)
  let ptk ← (a.ptkOf anonce msg2.keyNonce).toOption
  guard (msg2.keyMic = micOf P frame ptk.kck a.version)
  return (ptk, msg2.keyData)

/-- A frame reaches the authenticator: a message 2 to one of the outstanding message 1s. -/
def hear (ap : Authenticator) (frame : Bytes) : Authenticator :=
  match ap.outstanding.findSome? fun counter => a.recvMsg2 counter ap.anonce frame with
  | some (ptk, _) => { ap with ptk := some ptk }
  | none => ap

/-- Message 1 goes out. With a fresh ANonce the authenticator starts over. -/
def greet (ap : Authenticator) (hello : Hello) : Authenticator :=
  if hello.anonce = ap.anonce then
    { ap with counter := some hello.counter, outstanding := hello.counter :: ap.outstanding }
  else
    { anonce := hello.anonce, counter := some hello.counter, outstanding := [hello.counter]
      ptk := none }

/-- The message 1 a frame is, when the station replied to it. -/
def answer (frame : Sent) (out : Except Eapol.Error (List Action)) : Option Hello :=
  match frame with
  | .msg1 hello => if sends out = [] then none else some hello
  | .msg3 _ _ _ => none

/-- What a poll of the station reports, if the move made one. -/
abbrev Report : Type := Option (Except Eapol.Error (List Action))

/-- One move on the link. -/
def step (w : Link) : Move → Link × Report
  | .msg1 hello => ({ w with ap := greet w.ap hello, down := w.down ++ [.msg1 hello] }, none)
  | .msg2 index =>
    match w.up[index]? with
    | some frame => ({ w with ap := a.hear w.ap frame }, none)
    | none => (w, none)
  | .msg3 counter =>
    match w.ap.ptk with
    | some ptk =>
      ({ w with ap := { w.ap with counter := some counter }
                down := w.down ++ [.msg3 counter w.ap.anonce ptk] }, none)
    | none => (w, none)
  | .lose => ({ w with down := w.down.tail }, none)
  | .timeout =>
    let r := w.station.poll P .timeout
    ({ w with station := r.1, up := w.up ++ sends r.2, installed := w.installed ++ installs r.2
              timeouts := w.timeouts + 1 }, some r.2)
  | .deliver =>
    match w.down with
    | [] => (w, none)
    | frame :: rest =>
      let r := w.station.poll P (.frame (a.bytes frame))
      ({ w with
          station := r.1
          down := rest
          up := w.up ++ sends r.2
          answered := (answer frame r.2).or w.answered
          installed := (if (answer frame r.2).isSome then [] else w.installed) ++ installs r.2
          timeouts := 0 }, some r.2)

/-- Before the first frame. -/
def start (anonce : Octets 32) : Link where
  station := FourWay.withSnonce a.pmk a.config a.snonce
  ap := { anonce, counter := none, outstanding := [], ptk := none }
  down := []
  up := []
  answered := none
  installed := []
  timeouts := 0

/-- The counter exceeds every one used. -/
def Fresh (ap : Authenticator) (counter : UInt64) : Prop :=
  ∀ last ∈ ap.counter, last < counter

instance (ap : Authenticator) (counter : UInt64) : Decidable (Fresh ap counter) :=
  Option.decidableForallMem ap.counter

/-- The authenticator counts upwards, and at most `retryLimit` timeouts come in a row. -/
def Honest (w : Link) : Move → Prop
  | .msg1 hello => Fresh w.ap hello.counter
  | .msg3 counter => Fresh w.ap counter
  | .timeout => w.timeouts < retryLimit
  | _ => True

instance (w : Link) (m : Move) : Decidable (Honest w m) :=
  match m with
  | .msg1 hello => inferInstanceAs (Decidable (Fresh w.ap hello.counter))
  | .msg3 counter => inferInstanceAs (Decidable (Fresh w.ap counter))
  | .timeout => inferInstanceAs (Decidable (w.timeouts < retryLimit))
  | .msg2 _ | .deliver | .lose => isTrue trivial

/-- The frame a move delivers to the station. -/
def delivered (w : Link) : Move → Option Sent
  | .deliver => w.down.head?
  | _ => none

/-! ## The two sides of message 2 -/

section Message2

variable {a} {counter : UInt64} {anonce : Octets 32} {ptk : Ptk} {ie frame : Bytes}

/-- What the authenticator learns from a frame, and the checks it makes first. -/
theorem recvMsg2_eq_some : a.recvMsg2 counter anonce frame = some (ptk, ie) ↔
    ∃ eapol, Eapol.parse frame = .ok eapol ∧ eapol.packetType = .key ∧
      ∃ msg2, KeyFrame.parse eapol.body = .ok msg2 ∧
      (msg2.keyInfo.pairwise ∧ msg2.keyInfo.mic ∧ !msg2.keyInfo.ack ∧ !msg2.keyInfo.secure) ∧
      (msg2.keyLength = 0 ∧ msg2.replayCounter = counter) ∧
      ∃ ptk', a.ptkOf anonce msg2.keyNonce = .ok ptk' ∧
        msg2.keyMic = micOf P frame ptk'.kck a.version ∧ ptk' = ptk ∧ msg2.keyData = ie := by
  simp only [recvMsg2, Option.bind_eq_bind, Option.bind_eq_some_iff, Except.toOption_eq_some,
    Option.pure_def, Option.some.injEq, Prod.mk.injEq, Option.guard_eq_some', exists_const]

theorem recvMsg2_signed (f : KeyFrame) (v : UInt8) (kck : Octets 16)
    (hfit : bodyMin + f.keyData.length < 65536) :
    a.recvMsg2 counter anonce (f.encodeSigned P v kck a.version) = some (ptk, ie) ↔
      (f.keyInfo.pairwise ∧ f.keyInfo.mic ∧ !f.keyInfo.ack ∧ !f.keyInfo.secure) ∧
      (f.keyLength = 0 ∧ f.replayCounter = counter) ∧
      ∃ ptk', a.ptkOf anonce f.keyNonce = .ok ptk' ∧
        (f.signed P v kck a.version).keyMic =
          micOf P (f.encodeSigned P v kck a.version) ptk'.kck a.version ∧
        ptk' = ptk ∧ f.keyData = ie := by
  have hparse := KeyFrame.parse_encode (f.signed P v kck a.version) v hfit
  rw [← KeyFrame.encodeSigned_eq] at hparse
  have hbody : KeyFrame.parse (f.signed P v kck a.version).body = .ok (f.signed P v kck a.version) :=
    KeyFrame.parse_body _ (lt_of_le_of_lt (Nat.le_add_left _ _) hfit)
  rw [recvMsg2_eq_some, hparse]
  constructor
  · rintro ⟨eapol, heapol, -, msg2, hmsg2, hrest⟩
    cases heapol
    cases hbody.symm.trans hmsg2
    exact hrest
  · exact fun hrest => ⟨_, rfl, rfl, _, hbody, hrest⟩

/-- The MIC an authenticator recomputes is the one the frame was signed with. -/
theorem micOf_signed (f : KeyFrame) (v : UInt8) (kck : Octets 16) (version : KeyDescriptorVersion) :
    (f.signed P v kck version).keyMic = micOf P (f.encodeSigned P v kck version) kck version := by
  have h := f.verifyFrameMic_signed P v kck version
  unfold verifyFrameMic at h
  split_ifs at h
  rw [Eapol.liftCrypto_eq_ok, verifyMic_eq_ok] at h
  rw [KeyFrame.encodeSigned_eq]
  exact h.symm

variable {h : FourWay}

theorem msg2_flags (version : KeyDescriptorVersion) :
    (h.msg2 version counter).keyInfo.pairwise ∧ (h.msg2 version counter).keyInfo.mic ∧
      !(h.msg2 version counter).keyInfo.ack ∧ !(h.msg2 version counter).keyInfo.secure := by
  simp only [FourWay.msg2, FourWay.reply]
  cases version <;> decide

theorem msg4_secure (version : KeyDescriptorVersion) :
    (FourWay.msg4 version counter).keyInfo.secure = true := by
  simp only [FourWay.msg4, FourWay.reply]
  cases version <;> decide

variable (counter) in
/-- **Message 2 verifies** for the message 1 it answers. -/
theorem recvMsg2_msg2 (v : UInt8) (hconfig : h.config = a.config) (hsnonce : h.snonce = a.snonce)
    (hptk : a.ptkOf anonce a.snonce = .ok ptk) :
    a.recvMsg2 counter anonce ((h.msg2 a.version counter).encodeSigned P v ptk.kck a.version) =
      some (ptk, a.config.assocRsnIe) := by
  rw [recvMsg2_signed _ _ _ h.config.assocFits]
  exact ⟨msg2_flags _, ⟨rfl, rfl⟩, ptk, (congrArg _ hsnonce).trans hptk, micOf_signed _ _ _ _, rfl,
    congrArg Config.assocRsnIe hconfig⟩

/-- Message 2 teaches an authenticator nothing but the keys of its own nonce, for the message 1
with its counter. -/
theorem recvMsg2_msg2_inv {counter' : UInt64} (v : UInt8) (kck : Octets 16)
    (hsnonce : h.snonce = a.snonce)
    (hrecv : a.recvMsg2 counter' anonce ((h.msg2 a.version counter).encodeSigned P v kck a.version) =
      some (ptk, ie)) : counter' = counter ∧ a.ptkOf anonce a.snonce = .ok ptk := by
  obtain ⟨-, ⟨-, hcounter⟩, _, hptk, -, rfl, -⟩ :=
    (recvMsg2_signed _ _ _ h.config.assocFits).mp hrecv
  exact ⟨hcounter.symm, (congrArg _ hsnonce).symm.trans hptk⟩

theorem recvMsg2_msg4 {counter' : UInt64} (v : UInt8) (kck : Octets 16) :
    a.recvMsg2 counter' anonce
      ((FourWay.msg4 a.version counter).encodeSigned P v kck a.version) ≠ some (ptk, ie) := by
  intro hrecv
  obtain ⟨⟨-, -, -, hsecure⟩, -⟩ :=
    (recvMsg2_signed _ _ _ (by simp [FourWay.msg4, FourWay.reply, bodyMin])).mp hrecv
  simp [msg4_secure] at hsecure

end Message2

/-! ## The Key Data of message 3 -/

theorem ptkOf_ok (anonce snonce : Octets 32) : ∃ ptk, a.ptkOf anonce snonce = .ok ptk := by
  obtain ⟨hash, hhash⟩ := a.derives
  exact ⟨_, by rw [ptkOf, derivePtk, hhash]; rfl⟩

theorem keyData_eq : ∃ pad, a.keyData = eidRsn :: UInt8.ofNat a.rsnBody.length ::
    (a.rsnBody ++ (Authenticator.gtkKdeBytes a.gtkIndex a.gtk ++ pad)) := by
  obtain ⟨pad, hpad⟩ := Authenticator.padded_append
    (a.config.beaconRsnIe ++ Authenticator.gtkKdeBytes a.gtkIndex a.gtk)
  exact ⟨pad, by rw [keyData, hpad, a.beacon]; simp⟩

theorem rsnBody_length : a.rsnBody.length = (UInt8.ofNat a.rsnBody.length).toNat ∧
    UInt8.ofNat a.rsnBody.length ≠ 0 := by
  obtain ⟨hpos, hfits⟩ := a.rsnLength
  have hlen : (UInt8.ofNat a.rsnBody.length).toNat = a.rsnBody.length := by
    simp only [UInt8.toNat_ofNat']
    omega
  refine ⟨hlen.symm, fun hzero => ?_⟩
  rw [hzero] at hlen
  exact absurd hlen.symm (by simpa using hpos.ne')

theorem rsnElement_keyData : rsnElement a.keyData = some a.config.beaconRsnIe := by
  obtain ⟨pad, hpad⟩ := a.keyData_eq
  rw [hpad, a.beacon]
  exact Authenticator.rsnElement_cons _ _ _ a.rsnBody_length.1 a.rsnBody_length.2

theorem gtkKde_keyData : gtkKde a.keyData = .ok a.groupKey := by
  obtain ⟨pad, hpad⟩ := a.keyData_eq
  rw [hpad, Authenticator.gtkKde_skip _ _ _ a.rsnBody_length.1 a.rsnBody_length.2]
  exact Authenticator.gtkKde_cons _ _ _ a.gtkLength

theorem unwrap_wrapped (ptk : Ptk) : unwrapKeyData P ptk.kek (a.wrapped ptk) = .ok a.keyData := by
  obtain ⟨hmin, hmul, -⟩ := Authenticator.length_padded
    (a.config.beaconRsnIe ++ Authenticator.gtkKdeBytes a.gtkIndex a.gtk)
  exact a.unwraps _ _ hmin hmul

theorem wrapped_fits (ptk : Ptk) : bodyMin + (a.wrapped ptk).length < 65536 := by
  have hout : (a.wrapped ptk).length - 8 = a.keyData.length := by
    have h := a.unwrap_wrapped ptk
    unfold unwrapKeyData at h
    split_ifs at h
    split at h
    · rw [← Except.ok.inj h]
      exact (List.Vector.toList_length _).symm
    · cases h
  have hpad := (Authenticator.length_padded
    (a.config.beaconRsnIe ++ Authenticator.gtkKdeBytes a.gtkIndex a.gtk)).2.2
  have hkde : (Authenticator.gtkKdeBytes a.gtkIndex a.gtk).length = 8 + a.gtk.length := by
    simp [Authenticator.gtkKdeBytes]
    omega
  have hrsn : a.config.beaconRsnIe.length = 2 + a.rsnBody.length := by
    rw [a.beacon]
    simp
    omega
  have hgtk := a.gtkLength
  have hbody := a.rsnLength.2
  rw [List.length_append, hkde, hrsn, ← keyData] at hpad
  simp only [bodyMin]
  omega

/-! ## The invariant -/

/-- The station holds the keys of a message 1, and has handed them over if it is established. -/
structure Keyed (h : FourWay) (installed : List Keys) (hello : Hello) (ptk : Ptk) : Prop where
  derived : a.ptkOf hello.anonce a.snonce = .ok ptk
  current : h.ptk = some ptk
  anonce : h.anonce = hello.anonce
  version : h.descriptorVersion = a.version
  sent : ∀ frame, h.lastSent = some frame →
    a.recvMsg2 hello.counter hello.anonce frame = some (ptk, a.config.assocRsnIe)
  phase : h.state = .awaitingMsg3 ∧ installed = [] ∨
    h.state = .established ∧ installed = [{ ptk, gtk := a.groupKey }]

/-- A frame of the station names no PTK but those of message 1s up to the one answered last. -/
def Echo (answered : Option Hello) (frame : Bytes) : Prop :=
  ∀ counter anonce ptk ie, a.recvMsg2 counter anonce frame = some (ptk, ie) →
    a.ptkOf anonce a.snonce = .ok ptk ∧ ∃ hello, answered = some hello ∧ counter ≤ hello.counter

/-- The station's side. -/
structure Held (h : FourWay) (up : List Bytes) (answered : Option Hello) (installed : List Keys)
    (timeouts : ℕ) : Prop where
  pmk : h.pmk = a.pmk
  config : h.config = a.config
  snonce : h.snonce = a.snonce
  running : h.state ≠ .failed
  patient : h.retries ≤ timeouts
  silent : answered = none → h.lastSent = none
  keyed : ∀ hello, answered = some hello → ∃ ptk, Keyed a h installed hello ptk
  echoes : ∀ frame ∈ up, Echo a answered frame
  resent : ∀ frame, h.lastSent = some frame → frame ∈ up

/-- The counter has been used. -/
def Spent (ap : Authenticator) (counter : UInt64) : Prop :=
  ∃ last, ap.counter = some last ∧ counter ≤ last

/-- The authenticator's side, over the message 1 answered last and the frames behind it: a message 3
is behind message 1s with its own ANonce only. -/
structure InOrder (ap : Authenticator) (line : List Sent) : Prop where
  increasing : line.Pairwise fun f g => f.counter < g.counter
  behind : line.Pairwise fun f g => ∀ hello counter anonce ptk, f = .msg1 hello →
    g = .msg3 counter anonce ptk → hello.anonce = anonce
  spent : ∀ f ∈ line, Spent ap f.counter
  current : ∀ hello, .msg1 hello ∈ line → ∀ c ∈ ap.outstanding, c ≤ hello.counter →
    hello.anonce = ap.anonce
  keys : ∀ counter anonce ptk, .msg3 counter anonce ptk ∈ line →
    a.ptkOf anonce a.snonce = .ok ptk

/-- The message 1 answered last, and the frames behind it. -/
def line (w : Link) : List Sent := (w.answered.map Sent.msg1).toList ++ w.down

/-- The authenticator's PTK is the one of its ANonce, and the station has answered a message 1 with
this ANonce. -/
structure Heard (ap : Authenticator) (answered : Option Hello) (ptk : Ptk) : Prop where
  derived : a.ptkOf ap.anonce a.snonce = .ok ptk
  answered : ∃ hello, answered = some hello ∧ ∃ c ∈ ap.outstanding, c ≤ hello.counter

/-- **The two sides agree.** -/
structure Agree (w : Link) : Prop where
  held : Held a w.station w.up w.answered w.installed w.timeouts
  order : InOrder a w.ap (line w)
  ahead : ∀ f ∈ w.down, ∀ seen, w.station.rxCounter = some seen → seen < f.counter
  seen : ∀ seen, w.station.rxCounter = some seen → Spent w.ap seen
  heard : ∀ ptk, w.ap.ptk = some ptk → Heard a w.ap w.answered ptk
  asked : ∀ counter anonce ptk, .msg3 counter anonce ptk ∈ w.down → w.answered ≠ none

section Moves

variable {a} {w : Link} {ap ap' : Authenticator} {line line' : List Sent} {counter : UInt64}

theorem Spent.lt_of_fresh (hc : Spent ap counter) {counter' : UInt64} (hfresh : Fresh ap counter') :
    counter < counter' := by
  obtain ⟨last, hlast, hle⟩ := hc
  exact UInt64.lt_of_le_of_lt hle (hfresh last hlast)

theorem Spent.mono (hc : Spent ap counter) {counter' : UInt64} (hfresh : Fresh ap counter')
    (hnext : ap'.counter = some counter') : Spent ap' counter :=
  ⟨counter', hnext, UInt64.le_of_lt (hc.lt_of_fresh hfresh)⟩

theorem InOrder.sublist (ho : InOrder a ap line) (hsub : line'.Sublist line) : InOrder a ap line' where
  increasing := ho.increasing.sublist hsub
  behind := ho.behind.sublist hsub
  spent f hf := ho.spent f (hsub.subset hf)
  current hello hmem := ho.current hello (hsub.subset hmem)
  keys c n ptk hmem := ho.keys c n ptk (hsub.subset hmem)

theorem InOrder.concat (ho : InOrder a ap line) {f : Sent} (hfresh : Fresh ap f.counter)
    (hnext : ap'.counter = some f.counter)
    (hbehind : ∀ hello, .msg1 hello ∈ line → ∀ c n ptk, f = .msg3 c n ptk → hello.anonce = n)
    (hcurrent : ∀ hello, .msg1 hello ∈ line ++ [f] → ∀ c ∈ ap'.outstanding, c ≤ hello.counter →
      hello.anonce = ap'.anonce)
    (hkeys : ∀ c n ptk, f = .msg3 c n ptk → a.ptkOf n a.snonce = .ok ptk) :
    InOrder a ap' (line ++ [f]) where
  increasing := by
    refine List.pairwise_append.mpr ⟨ho.increasing, List.pairwise_singleton _ _, ?_⟩
    intro g hg f' hf'
    rw [List.mem_singleton.mp hf']
    exact (ho.spent g hg).lt_of_fresh hfresh
  behind := by
    refine List.pairwise_append.mpr ⟨ho.behind, List.pairwise_singleton _ _, ?_⟩
    rintro g hg f' hf' hello c n ptk rfl rfl
    exact hbehind hello hg c n ptk (List.mem_singleton.mp hf').symm
  spent g hg := by
    rcases List.mem_append.mp hg with hg | hg
    · exact (ho.spent g hg).mono hfresh hnext
    · rw [List.mem_singleton.mp hg]
      exact ⟨_, hnext, UInt64.le_refl _⟩
  current := hcurrent
  keys c n ptk hmem := by
    rcases List.mem_append.mp hmem with hmem | hmem
    · exact ho.keys c n ptk hmem
    · exact hkeys c n ptk (List.mem_singleton.mp hmem).symm

theorem mem_line {f : Sent} : f ∈ Association.line w ↔
    (∃ hello, w.answered = some hello ∧ f = .msg1 hello) ∨ f ∈ w.down := by
  rw [Association.line, List.mem_append]
  cases w.answered with
  | none => simp
  | some hello => simp

theorem agree_start (anonce : Octets 32) : Agree a (a.start anonce) where
  held := ⟨rfl, rfl, rfl, nofun, Nat.le_refl _, fun _ => rfl, nofun, nofun, nofun⟩
  order := ⟨.nil, .nil, nofun, nofun, nofun⟩
  ahead := nofun
  seen := nofun
  heard := nofun
  asked := nofun

/-- **Message 1 goes out.** -/
theorem Agree.msg1 (hw : Agree a w) {hello : Hello} (hfresh : Fresh w.ap hello.counter) :
    Agree a (a.step w (.msg1 hello)).1 := by
  have hnext : (greet w.ap hello).counter = some hello.counter := by
    unfold greet
    split_ifs <;> rfl
  have hold (g : Sent) (hg : g ∈ line w) : ¬ hello.counter ≤ g.counter :=
    UInt64.not_le.mpr ((hw.order.spent g hg).lt_of_fresh hfresh)
  have hline : line (a.step w (.msg1 hello)).1 = line w ++ [.msg1 hello] := by
    simp only [step, line, List.append_assoc]
  have hcurrent (hello' : Hello) (hmem : .msg1 hello' ∈ line w ++ [.msg1 hello]) :
      ∀ c ∈ (greet w.ap hello).outstanding, c ≤ hello'.counter →
        hello'.anonce = (greet w.ap hello).anonce := by
    intro c hc hle
    unfold greet at hc ⊢
    rcases List.mem_append.mp hmem with hmem | hmem
    · split_ifs at hc ⊢ with hsame
      · rcases List.mem_cons.mp hc with rfl | hc
        · exact absurd hle (hold _ hmem)
        · exact hw.order.current hello' hmem c hc hle
      · rw [List.mem_singleton.mp hc] at hle
        exact absurd hle (hold _ hmem)
    · cases List.mem_singleton.mp hmem
      split_ifs with hsame
      · exact hsame
      · rfl
  refine ⟨hw.held, ?_, ?_, ?_, ?_, ?_⟩
  · rw [hline]
    exact hw.order.concat hfresh hnext (fun _ _ _ _ _ hf => nomatch hf) hcurrent
      (fun _ _ _ hf => nomatch hf)
  · intro f hf seen hseen
    rcases List.mem_append.mp hf with hf | hf
    · exact hw.ahead f hf seen hseen
    · rw [List.mem_singleton.mp hf]
      exact (hw.seen seen hseen).lt_of_fresh hfresh
  · exact fun seen hseen => (hw.seen seen hseen).mono hfresh hnext
  · intro ptk hptk
    change (greet w.ap hello).ptk = some ptk at hptk
    change Heard a (greet w.ap hello) w.answered ptk
    unfold greet at hptk ⊢
    split_ifs at hptk ⊢ with hsame
    obtain ⟨hderived, hello', hanswered, c, hc, hle⟩ := hw.heard ptk hptk
    exact ⟨hderived, hello', hanswered, c, List.mem_cons_of_mem _ hc, hle⟩
  · intro c n ptk hmem
    rcases List.mem_append.mp hmem with hmem | hmem
    · exact hw.asked c n ptk hmem
    · cases List.mem_singleton.mp hmem

/-- **A frame of the station reaches the authenticator.** -/
theorem Agree.msg2 (hw : Agree a w) (index : ℕ) : Agree a (a.step w (.msg2 index)).1 := by
  cases hframe : w.up[index]? with
  | none =>
    simp only [step, hframe]
    exact hw
  | some frame =>
    simp only [step, hframe, hear]
    split
    · rename_i ptk ie hfound
      obtain ⟨c, hc, hrecv⟩ := List.exists_of_findSome?_eq_some hfound
      obtain ⟨hderived, hello, hanswered, hle⟩ :=
        hw.held.echoes frame (List.mem_of_getElem? hframe) c _ ptk ie hrecv
      refine ⟨hw.held, { hw.order with }, hw.ahead, hw.seen, fun ptk' hptk' => ?_, hw.asked⟩
      cases hptk'
      exact ⟨hderived, hello, hanswered, c, hc, hle⟩
    · exact hw

/-- **Message 3 goes out**, behind message 1s with its own ANonce only. -/
theorem Agree.msg3 (hw : Agree a w) (hfresh : Fresh w.ap counter) :
    Agree a (a.step w (.msg3 counter)).1 := by
  cases hptk : w.ap.ptk with
  | none =>
    simp only [step, hptk]
    exact hw
  | some ptk =>
    obtain ⟨hderived, hello, hanswered, c, hc, hle⟩ := hw.heard ptk hptk
    have hsame (hello' : Hello) (hmem : .msg1 hello' ∈ line w) : hello'.anonce = w.ap.anonce := by
      refine hw.order.current hello' hmem c hc ?_
      rcases mem_line.mp hmem with ⟨hello'', hanswered', heq⟩ | hdown
      · rw [hanswered] at hanswered'
        cases hanswered'
        cases heq
        exact hle
      · have hpair := hw.order.increasing
        rw [line, hanswered] at hpair
        have hlt := (List.pairwise_cons.mp hpair).1 _ hdown
        exact UInt64.le_trans hle (UInt64.le_of_lt hlt)
    have hline : line (a.step w (.msg3 counter)).1 =
        line w ++ [.msg3 counter w.ap.anonce ptk] := by
      simp only [step, hptk, line, List.append_assoc]
    have hcurrent (hello' : Hello)
        (hmem : .msg1 hello' ∈ line w ++ [.msg3 counter w.ap.anonce ptk]) :
        ∀ c ∈ w.ap.outstanding, c ≤ hello'.counter → hello'.anonce = w.ap.anonce := by
      rcases List.mem_append.mp hmem with hmem | hmem
      · exact hw.order.current hello' hmem
      · cases List.mem_singleton.mp hmem
    have horder : InOrder a { w.ap with counter := some counter }
        (line w ++ [.msg3 counter w.ap.anonce ptk]) := hw.order.concat hfresh rfl
      (fun hello' hmem _ _ _ hf => by cases hf; exact hsame hello' hmem) hcurrent
      (fun _ _ _ hf => by cases hf; exact hderived)
    rw [← hline] at horder
    simp only [step, hptk] at horder ⊢
    refine ⟨hw.held, horder, ?_, ?_, ?_, ?_⟩
    · intro f hf seen hseen
      rcases List.mem_append.mp hf with hf | hf
      · exact hw.ahead f hf seen hseen
      · rw [List.mem_singleton.mp hf]
        exact (hw.seen seen hseen).lt_of_fresh hfresh
    · exact fun seen hseen => (hw.seen seen hseen).mono hfresh rfl
    · intro ptk' hptk'
      obtain ⟨hd, ha⟩ := hw.heard ptk' (hptk.trans hptk')
      exact ⟨hd, ha⟩
    · intro c n ptk' hmem
      simp [hanswered]

/-- **A frame is lost.** -/
theorem Agree.lose (hw : Agree a w) : Agree a (a.step w .lose).1 := by
  have htail := (List.tail_sublist w.down).subset
  refine ⟨hw.held, hw.order.sublist ?_, fun f hf => hw.ahead f (htail hf), hw.seen, hw.heard,
    fun c n ptk hmem => hw.asked c n ptk (htail hmem)⟩
  exact List.Sublist.append_left (List.tail_sublist _) _

theorem Held.poll_timeout {h : FourWay} {up : List Bytes} {answered : Option Hello}
    {installed : List Keys} {timeouts : ℕ} (hh : Held a h up answered installed timeouts)
    (hlimit : timeouts < retryLimit) :
    ∃ h' actions, h.poll P .timeout = (h', .ok actions) ∧ installs (.ok actions) = [] ∧
      (∀ frame ∈ sends (.ok actions), h.lastSent = some frame) ∧ h'.rxCounter = h.rxCounter ∧
      Held a h' up answered installed (timeouts + 1) := by
  cases hsent : h.lastSent with
  | none =>
    have hpoll : h.poll P .timeout = (h, .ok []) := by
      simp only [FourWay.poll, FourWay.handle, FourWay.onTimeout, hsent]
    exact ⟨h, [], hpoll, rfl, fun _ hf => absurd hf List.not_mem_nil, rfl,
      { hh with patient := Nat.le_succ_of_le hh.patient }⟩
  | some frame =>
    have hretry : ¬ h.retries ≥ retryLimit := by
      have := hh.patient
      omega
    have hpoll : h.poll P .timeout = ({ h with retries := h.retries + 1 },
        .ok [.send frame, .armTimer retryIntervalMs]) := by
      simp only [FourWay.poll, FourWay.handle, FourWay.onTimeout, hsent, if_neg hretry]
    refine ⟨_, _, hpoll, rfl, fun f hf => ?_, rfl, ?_⟩
    · rw [List.mem_singleton.mp hf]
    · refine ⟨hh.pmk, hh.config, hh.snonce, hh.running, Nat.succ_le_succ hh.patient, hh.silent,
        fun hello hhello => ?_, hh.echoes, hh.resent⟩
      obtain ⟨ptk, hk⟩ := hh.keyed hello hhello
      exact ⟨ptk, hk.derived, hk.current, hk.anonce, hk.version, hk.sent, hk.phase⟩

/-- **The station waits in vain.** -/
theorem Agree.timeout (hw : Agree a w) (hlimit : w.timeouts < retryLimit) :
    Agree a (a.step w .timeout).1 := by
  obtain ⟨h', actions, hpoll, hnone, hresent, hcounter, hheld⟩ := hw.held.poll_timeout hlimit
  simp only [step, hpoll, hnone, List.append_nil]
  refine ⟨{ hheld with echoes := ?_, resent := ?_ }, hw.order, ?_, ?_, hw.heard, hw.asked⟩
  · intro frame hframe
    rcases List.mem_append.mp hframe with hframe | hframe
    · exact hw.held.echoes frame hframe
    · exact hw.held.echoes frame (hw.held.resent frame (hresent frame hframe))
  · exact fun frame hframe => List.mem_append_left _ (hheld.resent frame hframe)
  · simp only [hcounter]
    exact hw.ahead
  · simp only [hcounter]
    exact hw.seen

section Delivery

variable {h : FourWay} {up : List Bytes} {answered : Option Hello} {installed : List Keys}
  {timeouts : ℕ} {hello : Hello} {ptk : Ptk}

theorem Held.ptkOf_eq (hh : Held a h up answered installed timeouts) (anonce : Octets 32) :
    h.ptkOf P anonce = a.ptkOf anonce a.snonce := by
  rw [FourWay.ptkOf, hh.pmk, hh.config, hh.snonce]
  rfl

/-- **Message 1 is answered**, and the station holds its keys from then on. -/
theorem Held.poll_msg1 (hh : Held a h up answered installed timeouts)
    (hfresh : ∀ seen, h.rxCounter = some seen → seen < hello.counter)
    (hlater : ∀ old, answered = some old → old.counter ≤ hello.counter) :
    ∃ h' frame, h.poll P (.frame (a.bytes (.msg1 hello))) =
        (h', .ok [.send frame, .armTimer retryIntervalMs]) ∧
      h'.rxCounter = some hello.counter ∧ h'.lastSent = some frame ∧
      Held a h' (up ++ [frame]) (some hello) [] 0 := by
  obtain ⟨ptk, hptk⟩ := a.ptkOf_ok hello.anonce a.snonce
  have hversion := Authenticator.msg1_version_of a.speaks
  have hm := Authenticator.msg1_answered (P := P) (h := h)
    hh.running (by rw [hh.config]; exact hversion)
    ((hh.ptkOf_eq _).trans hptk) hfresh
  refine ⟨_, _, hm.poll_eq, rfl, rfl, ?_⟩
  have hrecv := recvMsg2_msg2 hello.counter Authenticator.protocolVersion hh.config
    hh.snonce hptk
  refine ⟨hh.pmk, hh.config, hh.snonce, nofun, Nat.le_refl _, nofun, ?_, ?_, ?_⟩
  · rintro hello' ⟨⟩
    refine ⟨ptk, hptk, rfl, rfl, rfl, fun frame hframe => ?_, .inl ⟨rfl, rfl⟩⟩
    cases hframe
    exact hrecv
  · intro frame hframe counter anonce ptk' ie hframe'
    rcases List.mem_append.mp hframe with hframe | hframe
    · obtain ⟨hd, old, hold, hle⟩ := hh.echoes frame hframe counter anonce ptk' ie hframe'
      exact ⟨hd, hello, rfl, UInt64.le_trans hle (hlater old hold)⟩
    · rw [List.mem_singleton.mp hframe] at hframe'
      obtain ⟨rfl, hd⟩ := recvMsg2_msg2_inv _ _ hh.snonce hframe'
      exact ⟨hd, hello, rfl, UInt64.le_refl _⟩
  · rintro frame ⟨⟩
    exact List.mem_append_right _ (List.mem_singleton_self _)

/-- **Message 3 completes the handshake** once, with the keys it was built from. -/
theorem Held.poll_msg3 (hh : Held a h up answered installed timeouts)
    (hanswered : answered = some hello) (hptk : a.ptkOf hello.anonce a.snonce = .ok ptk)
    (hfresh : ∀ seen, h.rxCounter = some seen → seen < counter) :
    ∃ h' frame actions, h.poll P (.frame (a.bytes (.msg3 counter hello.anonce ptk))) =
        (h', .ok actions) ∧ sends (.ok actions) = [frame] ∧
      installed ++ installs (.ok actions) = [{ ptk, gtk := a.groupKey }] ∧
      h'.rxCounter = some counter ∧ h'.state = .established ∧ h'.ptk = some ptk ∧
      Held a h' (up ++ [frame]) answered [{ ptk, gtk := a.groupKey }] 0 := by
  obtain ⟨ptk', hk⟩ := hh.keyed hello hanswered
  obtain rfl : ptk' = ptk := Except.ok.inj (hk.derived.symm.trans hptk)
  have hstate : h.state = .awaitingMsg3 ∨ h.state = .established := hk.phase.imp And.left And.left
  have hm := Authenticator.msg3_answered hstate (a.wrapped_fits ptk')
    hk.version hfresh hk.current hk.anonce (a.unwrap_wrapped ptk')
    (by rw [hh.config]; exact a.rsnElement_keyData) a.gtkKde_keyData
  refine ⟨_, h.signedMsg4 P ((Authenticator.msg3Frame a.version counter hello.anonce
    (a.wrapped ptk')).signed P Authenticator.protocolVersion ptk'.kck a.version) ptk', _,
    hm.poll_eq, ?_, ?_, rfl, rfl, hk.current, ?_⟩
  · rcases hk.phase with ⟨hst, -⟩ | ⟨hst, -⟩ <;>
      simp [sends, FourWay.Action.frame?, FourWay.completion, hst]
  · rcases hk.phase with ⟨hst, hnone⟩ | ⟨hst, hone⟩
    · rw [hst, hnone]
      rfl
    · rw [hst, hone]
      rfl
  · refine ⟨hh.pmk, hh.config, hh.snonce, by rintro ⟨⟩, Nat.zero_le _, fun _ => rfl, ?_, ?_,
      by rintro frame ⟨⟩⟩
    · intro hello' hhello'
      obtain rfl : hello = hello' := Option.some.inj (hanswered.symm.trans hhello')
      exact ⟨ptk', hk.derived, hk.current, hk.anonce, hk.version, by rintro frame ⟨⟩,
        .inr ⟨rfl, rfl⟩⟩
    · intro frame hframe counter' anonce ptk ie hframe'
      rcases List.mem_append.mp hframe with hframe | hframe
      · exact hh.echoes frame hframe counter' anonce ptk ie hframe'
      · rw [List.mem_singleton.mp hframe, FourWay.signedMsg4, hk.version] at hframe'
        exact absurd hframe' (recvMsg2_msg4 _ _)

end Delivery

theorem Agree.deliver_msg1 (hw : Agree a w) {hello : Hello} {rest : List Sent}
    (hdown : w.down = .msg1 hello :: rest) :
    ∃ h' frame, a.step w .deliver = ({ w with
        station := h', down := rest, up := w.up ++ [frame], answered := some hello, installed := []
        timeouts := 0 }, some (.ok [.send frame, .armTimer retryIntervalMs])) ∧
      h'.rxCounter = some hello.counter ∧ h'.lastSent = some frame ∧
      Held a h' (w.up ++ [frame]) (some hello) [] 0 := by
  have hahead := hw.ahead (.msg1 hello) (by rw [hdown]; exact List.mem_cons_self)
  have hlater (old : Hello) (hold : w.answered = some old) : old.counter ≤ hello.counter := by
    have hpair := hw.order.increasing
    rw [line, hold, hdown] at hpair
    exact UInt64.le_of_lt ((List.pairwise_cons.mp hpair).1 _ List.mem_cons_self)
  obtain ⟨h', frame, hpoll, hcounter, hsent, hheld⟩ := hw.held.poll_msg1 hahead hlater
  refine ⟨h', frame, ?_, hcounter, hsent, hheld⟩
  simp only [step, hdown, hpoll]
  rfl

theorem Agree.deliver_msg3 (hw : Agree a w) {anonce : Octets 32} {ptk : Ptk} {rest : List Sent}
    (hdown : w.down = .msg3 counter anonce ptk :: rest) :
    ∃ h' frame actions, a.step w .deliver = ({ w with
        station := h', down := rest, up := w.up ++ [frame]
        installed := [{ ptk, gtk := a.groupKey }], timeouts := 0 }, some (.ok actions)) ∧
      (∃ hello, w.answered = some hello ∧ hello.anonce = anonce) ∧
      h'.rxCounter = some counter ∧ h'.state = .established ∧ h'.ptk = some ptk ∧
      Held a h' (w.up ++ [frame]) w.answered [{ ptk, gtk := a.groupKey }] 0 := by
  have hmem : Sent.msg3 counter anonce ptk ∈ w.down := by rw [hdown]; exact List.mem_cons_self
  obtain ⟨hello, hanswered⟩ := Option.ne_none_iff_exists'.mp (hw.asked counter anonce ptk hmem)
  have hbehind := hw.order.behind
  rw [line, hanswered, hdown] at hbehind
  obtain rfl : hello.anonce = anonce :=
    (List.pairwise_cons.mp hbehind).1 _ List.mem_cons_self hello counter anonce ptk rfl rfl
  have hkeys := hw.order.keys counter hello.anonce ptk (mem_line.mpr (.inr hmem))
  obtain ⟨h', frame, actions, hpoll, hsends, hinstalls, hcounter, hstate, hptk, hheld⟩ :=
    hw.held.poll_msg3 hanswered hkeys
      (show ∀ seen, w.station.rxCounter = some seen → seen < counter from hw.ahead _ hmem)
  refine ⟨h', frame, actions, ?_, ⟨hello, hanswered, rfl⟩, hcounter, hstate, hptk, hheld⟩
  simp only [step, hdown, hpoll, hsends]
  rw [← hinstalls]
  rfl

/-- **A frame reaches the station.** -/
theorem Agree.deliver (hw : Agree a w) : Agree a (a.step w .deliver).1 := by
  cases hdown : w.down with
  | nil =>
    simp only [step, hdown]
    exact hw
  | cons f rest =>
    have hrest : rest.Sublist w.down := by rw [hdown]; exact List.sublist_cons_self f rest
    have hspent : Spent w.ap f.counter :=
      hw.order.spent f (mem_line.mpr (.inr (by rw [hdown]; exact List.mem_cons_self)))
    have hpair := hw.order.increasing
    rw [line, hdown] at hpair
    have hafter := (List.pairwise_cons.mp (List.pairwise_append.mp hpair).2.1).1
    cases f with
    | msg1 hello =>
      obtain ⟨h', frame, hstep, hcounter, -, hheld⟩ := hw.deliver_msg1 hdown
      rw [hstep]
      refine ⟨hheld, ?_, ?_, ?_, ?_, nofun⟩
      · have hline : Association.line w = (w.answered.map Sent.msg1).toList ++ .msg1 hello :: rest := by
          rw [Association.line, hdown]
        refine hw.order.sublist ?_
        rw [hline]
        exact List.sublist_append_right _ _
      · intro g hg seen hseen
        rw [← Option.some.inj (hcounter.symm.trans hseen)]
        exact hafter g hg
      · intro seen hseen
        rw [← Option.some.inj (hcounter.symm.trans hseen)]
        exact hspent
      · intro ptk hptk
        obtain ⟨hd, old, hold, c, hc, hle⟩ := hw.heard ptk hptk
        have hlt : old.counter < hello.counter :=
          (List.pairwise_append.mp hpair).2.2 (.msg1 old) (by simp [hold]) (.msg1 hello)
            List.mem_cons_self
        exact ⟨hd, hello, rfl, c, hc, UInt64.le_trans hle (UInt64.le_of_lt hlt)⟩
    | msg3 c n ptk =>
      obtain ⟨h', frame, actions, hstep, -, hcounter, -, -, hheld⟩ := hw.deliver_msg3 hdown
      rw [hstep]
      refine ⟨hheld, ?_, ?_, ?_, hw.heard, fun c' n' ptk' hmem =>
        hw.asked c' n' ptk' (hrest.subset hmem)⟩
      · exact hw.order.sublist (List.Sublist.append_left hrest _)
      · intro g hg seen hseen
        rw [← Option.some.inj (hcounter.symm.trans hseen)]
        exact hafter g hg
      · intro seen hseen
        rw [← Option.some.inj (hcounter.symm.trans hseen)]
        exact hspent

/-- **Every honest move keeps the two sides in agreement.** -/
theorem Agree.move (hw : Agree a w) (m : Move) (hm : Honest w m) : Agree a (a.step w m).1 := by
  cases m with
  | msg1 hello => exact hw.msg1 hm
  | msg2 index => exact hw.msg2 index
  | msg3 counter => exact hw.msg3 hm
  | deliver => exact hw.deliver
  | lose => exact hw.lose
  | timeout => exact hw.timeout hm

end Moves

/-! ## Honest runs -/

/-- What a move of an honest run shows: the station's polls succeed, it answers the message 1 that
reaches it, the message 2 it sends verifies for the message 1 it answered last, and message 3 has
handed over the authenticator's keys once since then. -/
structure Succeeds (e : Entry Link Move Report) : Prop where
  polls : ∀ error, e.output ≠ some (.error error)
  answers : ∀ hello, delivered e.pre e.input = some (.msg1 hello) → e.post.answered = some hello ∧
    ∃ frame, e.output = some (.ok [.send frame, .armTimer retryIntervalMs])
  verifies : ∀ out frame, e.output = some out → frame ∈ sends out →
    (∀ counter anonce ptk, delivered e.pre e.input ≠ some (.msg3 counter anonce ptk)) →
    ∃ hello ptk, e.post.answered = some hello ∧ a.ptkOf hello.anonce a.snonce = .ok ptk ∧
      a.recvMsg2 hello.counter hello.anonce frame = some (ptk, a.config.assocRsnIe)
  completes : ∀ counter anonce ptk, delivered e.pre e.input = some (.msg3 counter anonce ptk) →
    (∃ hello, e.pre.answered = some hello ∧ hello.anonce = anonce) ∧
    e.post.station.state = .established ∧ e.post.station.ptk = some ptk ∧
    e.post.installed = [{ ptk, gtk := a.groupKey }]

variable {a}

theorem Succeeds.of_quiet {e : Entry Link Move Report} (hout : e.output = none)
    (hdel : delivered e.pre e.input = none) : Succeeds a e where
  polls error := by rw [hout]; nofun
  answers hello hsome := by rw [hdel] at hsome; cases hsome
  verifies out frame hsome := by rw [hout] at hsome; cases hsome
  completes c n ptk hsome := by rw [hdel] at hsome; cases hsome

theorem Agree.succeeds_timeout {w : Link} (hw : Agree a w) (hlimit : w.timeouts < retryLimit) :
    Succeeds a (entry a.step w .timeout) := by
  obtain ⟨h', actions, hpoll, -, hresent, -, -⟩ := hw.held.poll_timeout hlimit
  have hout : (entry a.step w .timeout).output = some (.ok actions) := by
    simp only [Machine.entry_output, step, hpoll]
  refine ⟨fun error => by rw [hout]; nofun, nofun, fun out frame hsome hframe _ => ?_, nofun⟩
  cases hout.symm.trans hsome
  have hsent := hresent frame hframe
  cases hanswered : w.answered with
  | none => rw [hw.held.silent hanswered] at hsent; cases hsent
  | some hello =>
    obtain ⟨ptk, hk⟩ := hw.held.keyed hello hanswered
    exact ⟨hello, ptk, hanswered, hk.derived, hk.sent frame hsent⟩

theorem Agree.succeeds_deliver {w : Link} (hw : Agree a w) :
    Succeeds a (entry a.step w .deliver) := by
  cases hdown : w.down with
  | nil =>
    refine .of_quiet ?_ ?_
    · simp only [Machine.entry_output, step, hdown]
    · simp only [Machine.entry_pre, Machine.entry_input, delivered, hdown, List.head?_nil]
  | cons f rest =>
    have hhead : delivered w .deliver = some f := by rw [delivered, hdown, List.head?_cons]
    cases f with
    | msg1 hello =>
      obtain ⟨h', frame, hstep, -, hsent, hheld⟩ := hw.deliver_msg1 hdown
      refine ⟨fun error => by rw [Machine.entry_output, hstep]; nofun, ?_, ?_, ?_⟩
      · intro hello' hsome
        cases hhead.symm.trans hsome
        rw [Machine.entry_post, Machine.entry_output, hstep]
        exact ⟨rfl, frame, rfl⟩
      · intro out frame' hsome hframe _
        rw [Machine.entry_output, hstep] at hsome
        cases hsome
        obtain ⟨ptk, hk⟩ := hheld.keyed hello rfl
        rw [List.mem_singleton.mp hframe]
        exact ⟨hello, ptk, by rw [Machine.entry_post, hstep], hk.derived, hk.sent frame hsent⟩
      · intro c n ptk hsome
        cases hhead.symm.trans hsome
    | msg3 c n ptk =>
      obtain ⟨h', frame, actions, hstep, hanswered, -, hstate, hptk, -⟩ := hw.deliver_msg3 hdown
      refine ⟨fun error => by rw [Machine.entry_output, hstep]; nofun, ?_, ?_, ?_⟩
      · intro hello hsome
        cases hhead.symm.trans hsome
      · intro out frame' _ _ hno
        exact absurd hhead (hno c n ptk)
      · intro c' n' ptk' hsome
        cases hhead.symm.trans hsome
        rw [Machine.entry_post, hstep]
        exact ⟨hanswered, hstate, hptk, rfl⟩

theorem Agree.succeeds {w : Link} (hw : Agree a w) (m : Move) (hm : Honest w m) :
    Succeeds a (entry a.step w m) := by
  cases m with
  | msg1 hello => exact .of_quiet rfl rfl
  | msg2 index =>
    refine .of_quiet ?_ rfl
    simp only [Machine.entry_output, step]
    split <;> rfl
  | msg3 counter =>
    refine .of_quiet ?_ rfl
    simp only [Machine.entry_output, step]
    split <;> rfl
  | deliver => exact hw.succeeds_deliver
  | lose => exact .of_quiet rfl rfl
  | timeout => exact hw.succeeds_timeout hm

/-- **In every honest run no poll fails, a delivered message 1 is answered, every message 2 verifies
at the authenticator, and message 3 completes the handshake with the authenticator's own keys.** -/
theorem honest_run (a : Association P) (anonce : Octets 32) (moves : List Move)
    (hhonest : Along (fun _ e => Honest e.pre e.input) (log a.step (a.start anonce) moves)) :
    Along (fun _ e => a.Succeeds e) (log a.step (a.start anonce) moves) :=
  Machine.along_of_inv (J := fun _ w => Agree a w) (agree_start anonce)
    (fun _ _ m hw hm => hw.move m hm) (fun _ _ m hw hm => hw.succeeds m hm) moves hhonest

end Association

namespace Sample

/-- The sample association and its authenticator. -/
def association : Association .sample where
  pmk := pmk
  config := config
  snonce := snonce
  version := .hmacSha1
  gtk := gtk.key
  gtkIndex := 1
  rsnBody := rsnBody
  wrapKey _ data := sampleIcv ++ data
  derives := ⟨.sha1, rfl⟩
  speaks := by decide
  gtkLength := .inl rfl
  rsnLength := by decide
  beacon := rfl
  unwraps kek data hmin hmul := Primitives.sample_unwrap kek data (by simp only [icvLen]; omega) hmul

/-- Message 1 is repeated and the repetition lost; message 3 is lost once. -/
def moves : List Move :=
  [.msg1 ⟨1, anonce⟩, .deliver, .timeout, .msg1 ⟨2, anonce⟩, .lose, .msg2 0, .msg3 3, .lose,
    .timeout, .msg3 4, .deliver]

end Sample

/-- The sample run is honest, and it completes the handshake. -/
theorem Association.honest_run_sample :
    Along (fun _ e => Sample.association.Succeeds e)
        (log Sample.association.step (Sample.association.start Sample.anonce) Sample.moves) ∧
      (exec Sample.association.step (Sample.association.start Sample.anonce)
        Sample.moves).installed = [{ ptk := Sample.ptk, gtk := Sample.gtk }] := by
  refine ⟨Association.honest_run Sample.association Sample.anonce Sample.moves ?_, ?_⟩
  · rw [Machine.along_iff_forall]
    decide +kernel
  · decide +kernel

end Caw
