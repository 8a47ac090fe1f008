import Caw.Eapol.Frame
import Caw.Lib.Machine

/-!
# The 4-way handshake

The supplicant's side of the handshake and of the group rekeys that follow it. A handler returns
the next handshake and the actions to take, or an error; `FourWay.poll` turns an error into the
failed state and leaves everything else as it was.

* `Config`, `FourWay.Input`, `FourWay.Action`, `FourWay.State`, `FourWay`;
* `FourWay.onFrame`, `onTimeout`, `onMsg1`, `onMsg3`, `onGroupMsg1`, `poll`;
* `FourWay.Incoming`, `Message1`, `Message3`, `GroupMessage1`: the checks a frame has passed when
  the handshake answers it;
* **`FourWay.poll_step`**: every poll is one of the seven cases of `FourWay.Step`;
* **`FourWay.Message1.poll_eq`**, `Message3.poll_eq`, `GroupMessage1.poll_eq`: and a frame that
  passes its checks is answered.
-/

set_option autoImplicit false

namespace Caw

open Eapol (Error)

/-- How long the daemon waits before feeding a timeout, in milliseconds. -/
def retryIntervalMs : ℕ := 1000

/-- Retransmissions before the handshake is declared dead. -/
def retryLimit : ℕ := 3

/-- Everything the handshake needs to know about the association it protects. The RSN element of
the association request is a single element, so message 2 fits its length field. -/
structure Config where
  akm : Akm
  ownMac : Mac
  bssid : Mac
  assocRsnIe : Bytes
  beaconRsnIe : Bytes
  assocFits : bodyMin + assocRsnIe.length < 65536

/-- Outcome of a completed handshake. -/
structure Keys where
  ptk : Ptk
  gtk : Gtk
deriving DecidableEq

namespace FourWay

/-- What the caller feeds the state machine. -/
inductive Input where
  | frame (bytes : Bytes)
  | timeout
deriving DecidableEq

/-- What the caller should do, in the order given. -/
inductive Action where
  | send (frame : Bytes)
  | armTimer (ms : ℕ)
  | disarmTimer
  | complete (keys : Keys)
  | newGtk (gtk : Gtk)
deriving DecidableEq

/-- Where the handshake stands. -/
inductive State where
  | idle
  | awaitingMsg3
  | established
  | failed
deriving DecidableEq

end FourWay

/-- The 4-way handshake, and the group rekeys that follow it. -/
structure FourWay where
  pmk : Pmk
  config : Config
  snonce : Octets 32
  anonce : Octets 32
  ptk : Option Ptk
  descriptorVersion : KeyDescriptorVersion
  protocolVersion : UInt8
  /-- Highest replay counter accepted so far. -/
  rxCounter : Option UInt64
  state : FourWay.State
  lastSent : Option Bytes
  retries : ℕ

namespace FourWay

variable (P : Primitives)

/-- A handshake that has seen nothing yet. -/
def withSnonce (pmk : Pmk) (config : Config) (snonce : Octets 32) : FourWay where
  pmk := pmk
  config := config
  snonce := snonce
  anonce := Octets.zero 32
  ptk := none
  descriptorVersion := .hmacSha1
  protocolVersion := 2
  rxCounter := none
  state := .idle
  lastSent := none
  retries := 0

/-! ## Replies -/

/-- A reply: every field a supplicant does not fill is zero. -/
def reply (keyInfo : UInt16) (replayCounter : UInt64) (keyNonce : Octets 32) (keyData : Bytes) :
    KeyFrame where
  descriptorType := descriptorTypeRsn
  keyInfo := ⟨keyInfo⟩
  keyLength := 0
  replayCounter := replayCounter
  keyNonce := keyNonce
  keyIv := Octets.zero 16
  keyRsc := Octets.zero 8
  keyMic := Octets.zero micLen
  keyData := keyData

/-- Message 2: the SNonce and the RSN element of the association request. -/
def msg2 (h : FourWay) (version : KeyDescriptorVersion) (replayCounter : UInt64) : KeyFrame :=
  reply (version.bits ||| KeyInfo.PAIRWISE ||| KeyInfo.MIC) replayCounter h.snonce
    h.config.assocRsnIe

/-- Message 4: an acknowledgement of message 3. -/
def msg4 (version : KeyDescriptorVersion) (replayCounter : UInt64) : KeyFrame :=
  reply (version.bits ||| KeyInfo.PAIRWISE ||| KeyInfo.MIC ||| KeyInfo.SECURE) replayCounter
    (Octets.zero 32) []

/-- Group message 2: Key Type clear, since it acknowledges a group key. -/
def groupMsg2 (version : KeyDescriptorVersion) (replayCounter : UInt64) : KeyFrame :=
  reply (version.bits ||| KeyInfo.MIC ||| KeyInfo.SECURE) replayCounter (Octets.zero 32) []

/-- Message 2 as it is sent. -/
def signedMsg2 (h : FourWay) (eapol : Eapol) (msg1 : KeyFrame) (version : KeyDescriptorVersion)
    (ptk : Ptk) : Bytes :=
  (h.msg2 version msg1.replayCounter).encodeSigned P eapol.version ptk.kck version

/-- Message 4 as it is sent. -/
def signedMsg4 (h : FourWay) (msg3 : KeyFrame) (ptk : Ptk) : Bytes :=
  (msg4 h.descriptorVersion msg3.replayCounter).encodeSigned P h.protocolVersion ptk.kck
    h.descriptorVersion

/-- Group message 2 as it is sent. -/
def signedGroupMsg2 (h : FourWay) (msg1 : KeyFrame) (ptk : Ptk) : Bytes :=
  (groupMsg2 h.descriptorVersion msg1.replayCounter).encodeSigned P h.protocolVersion ptk.kck
    h.descriptorVersion

/-! ## Handlers -/

/-- The PTK the handshake derives from an ANonce. -/
def ptkOf (h : FourWay) (anonce : Octets 32) : Except Crypto.Error Ptk :=
  derivePtk P h.pmk h.config.akm h.config.bssid h.config.ownMac anonce h.snonce

/-- The handshake once message 1 is answered with `sent`. -/
def afterMsg1 (h : FourWay) (eapol : Eapol) (msg1 : KeyFrame) (version : KeyDescriptorVersion)
    (ptk : Ptk) (sent : Bytes) : FourWay :=
  { h with
    anonce := msg1.keyNonce
    descriptorVersion := version
    protocolVersion := eapol.version
    rxCounter := some msg1.replayCounter
    ptk := some ptk
    state := .awaitingMsg3
    retries := 0
    lastSent := some sent }

/-- Message 1: the ANonce arrives and the PTK becomes derivable. -/
def onMsg1 (h : FourWay) (eapol : Eapol) (msg1 : KeyFrame) :
    Except Error (FourWay × List Action) := do
  let version ← msg1.keyInfo.version h.config.akm
  let ptk ← Eapol.liftCrypto (h.ptkOf P msg1.keyNonce)
  let sent := h.signedMsg2 P eapol msg1 version ptk
  return (h.afterMsg1 eapol msg1 version ptk sent, [.send sent, .armTimer retryIntervalMs])

/-- The handshake once message 3 is answered. -/
def afterMsg3 (h : FourWay) (msg3 : KeyFrame) : FourWay :=
  { h with rxCounter := some msg3.replayCounter, state := .established, lastSent := none
           retries := 0 }

/-- The keys are handed over only for a first installation. -/
def completion (install : Bool) (keys : Keys) : List Action :=
  if install then [.complete keys] else []

/-- Message 3: the first frame either side can authenticate, and the one that carries the group
key. -/
def onMsg3 (h : FourWay) (eapol : Eapol) (msg3 : KeyFrame) (install : Bool) :
    Except Error (FourWay × List Action) :=
  match h.ptk with
  | none => .error .unexpectedMessage
  | some ptk => do
    verifyFrameMic P eapol.raw ptk.kck h.descriptorVersion msg3.keyMic
    if msg3.keyNonce ≠ h.anonce then .error .nonceMismatch
    else if !msg3.keyInfo.encrypted then .error .malformed
    else
      let keyData ← Eapol.liftCrypto (unwrapKeyData P ptk.kek msg3.keyData)
      match rsnElement keyData with
      | none => .error .rsnMissing
      | some advertised =>
        if advertised ≠ h.config.beaconRsnIe then .error .rsnMismatch
        else
          let gtk ← gtkKde keyData
          return (h.afterMsg3 msg3, [.send (h.signedMsg4 P msg3 ptk), .disarmTimer] ++
            completion install { ptk, gtk })

/-- Group message 1: a new GTK under the same KEK. -/
def onGroupMsg1 (h : FourWay) (eapol : Eapol) (msg1 : KeyFrame) :
    Except Error (FourWay × List Action) :=
  match h.ptk with
  | none => .error .unexpectedMessage
  | some ptk => do
    verifyFrameMic P eapol.raw ptk.kck h.descriptorVersion msg1.keyMic
    if !msg1.keyInfo.encrypted then .error .malformed
    else
      let keyData ← Eapol.liftCrypto (unwrapKeyData P ptk.kek msg1.keyData)
      let gtk ← gtkKde keyData
      return ({ h with rxCounter := some msg1.replayCounter },
        [.send (h.signedGroupMsg2 P msg1 ptk), .newGtk gtk])

/-- The counter of the frame does not exceed the highest one accepted. -/
def replayed (h : FourWay) (frame : KeyFrame) : Bool :=
  match h.rxCounter with
  | some seen => frame.replayCounter ≤ seen
  | none => false

/-- The frame by state, Key Type and Key MIC. -/
def dispatch (h : FourWay) (eapol : Eapol) (frame : KeyFrame) :
    Except Error (FourWay × List Action) :=
  match h.state, frame.keyInfo.pairwise, frame.keyInfo.mic with
  -- message 1 is the one frame with no MIC; it is accepted in every state that is not failed
  | _, true, false => h.onMsg1 P eapol frame
  | .awaitingMsg3, true, true => h.onMsg3 P eapol frame true
  -- message 4 was lost: answer again without handing the keys over a second time
  | .established, true, true => h.onMsg3 P eapol frame false
  | .established, false, true => h.onGroupMsg1 P eapol frame
  | _, _, _ => .error .unexpectedMessage

/-- A frame of the authenticator. -/
def onFrame (h : FourWay) (bytes : Bytes) : Except Error (FourWay × List Action) :=
  if h.state = .failed then .error .unexpectedMessage
  else do
    let eapol ← Eapol.parse bytes
    if eapol.packetType ≠ .key then return (h, [])
    else
      let frame ← KeyFrame.parse eapol.body
      if frame.descriptorType ≠ descriptorTypeRsn then
        .error (.unsupportedDescriptor frame.descriptorType)
      else if !frame.keyInfo.ack || frame.keyInfo.request then return (h, [])
      else if h.replayed frame then .error .replayedCounter
      else h.dispatch P eapol frame

/-- Nothing has come: the frame sent last is sent again, up to a limit. -/
def onTimeout (h : FourWay) : Except Error (FourWay × List Action) :=
  match h.lastSent with
  | none => .ok (h, [])
  | some frame =>
    if h.retries ≥ retryLimit then .error .timeout
    else .ok ({ h with retries := h.retries + 1 }, [.send frame, .armTimer retryIntervalMs])

/-- The handler of an input. -/
def handle (h : FourWay) : Input → Except Error (FourWay × List Action)
  | .frame bytes => h.onFrame P bytes
  | .timeout => h.onTimeout

/-- Feed one input. An error aborts the handshake for good. -/
def poll (h : FourWay) (input : Input) : FourWay × Except Error (List Action) :=
  match h.handle P input with
  | .ok (h', actions) => (h', .ok actions)
  | .error e => ({ h with state := .failed }, .error e)

/-! ## What one poll can do -/

/-- The frame has passed the checks made before its kind is looked at. -/
structure Incoming (h : FourWay) (bytes : Bytes) (eapol : Eapol) (frame : KeyFrame) : Prop where
  running : h.state ≠ .failed
  header : Eapol.parse bytes = .ok eapol
  isKey : eapol.packetType = .key
  body : KeyFrame.parse eapol.body = .ok frame
  isRsn : frame.descriptorType = descriptorTypeRsn
  ack : frame.keyInfo.ack = true
  noRequest : frame.keyInfo.request = false
  fresh : h.replayed frame = false

/-- A message 1 the handshake answers, and what it derives from it. -/
structure Message1 (h : FourWay) (bytes : Bytes) (eapol : Eapol) (frame : KeyFrame)
    (version : KeyDescriptorVersion) (ptk : Ptk) : Prop extends Incoming h bytes eapol frame where
  pairwise : frame.keyInfo.pairwise = true
  noMic : frame.keyInfo.mic = false
  versionOk : frame.keyInfo.version h.config.akm = .ok version
  derived : h.ptkOf P frame.keyNonce = .ok ptk

/-- A frame whose MIC verifies under the current PTK and whose Key Data unwraps under it. -/
structure Authentic (h : FourWay) (bytes : Bytes) (eapol : Eapol) (frame : KeyFrame) (ptk : Ptk)
    (keyData : Bytes) (gtk : Gtk) : Prop extends Incoming h bytes eapol frame where
  mic : frame.keyInfo.mic = true
  current : h.ptk = some ptk
  verified : verifyFrameMic P eapol.raw ptk.kck h.descriptorVersion frame.keyMic = .ok ()
  encrypted : frame.keyInfo.encrypted = true
  unwrapped : unwrapKeyData P ptk.kek frame.keyData = .ok keyData
  carries : gtkKde keyData = .ok gtk

/-- A message 3 the handshake answers. -/
structure Message3 (h : FourWay) (bytes : Bytes) (eapol : Eapol) (frame : KeyFrame) (ptk : Ptk)
    (keyData : Bytes) (gtk : Gtk) : Prop extends Authentic P h bytes eapol frame ptk keyData gtk where
  pairwise : frame.keyInfo.pairwise = true
  expected : h.state = .awaitingMsg3 ∨ h.state = .established
  sameNonce : frame.keyNonce = h.anonce
  sameRsn : rsnElement keyData = some h.config.beaconRsnIe

/-- A group message 1 the handshake answers. -/
structure GroupMessage1 (h : FourWay) (bytes : Bytes) (eapol : Eapol) (frame : KeyFrame) (ptk : Ptk)
    (keyData : Bytes) (gtk : Gtk) : Prop extends Authentic P h bytes eapol frame ptk keyData gtk where
  group : frame.keyInfo.pairwise = false
  expected : h.state = .established

/-- **What one poll can do.** -/
inductive Step (h : FourWay) : Input → FourWay → Except Error (List Action) → Prop
  | ignore (bytes) : Step h (.frame bytes) h (.ok [])
  | quiet : h.lastSent = none → Step h .timeout h (.ok [])
  | retransmit (frame) : h.lastSent = some frame → h.retries < retryLimit →
      Step h .timeout { h with retries := h.retries + 1 }
        (.ok [.send frame, .armTimer retryIntervalMs])
  | message1 (bytes eapol frame version ptk) : Message1 P h bytes eapol frame version ptk →
      Step h (.frame bytes)
        (h.afterMsg1 eapol frame version ptk (h.signedMsg2 P eapol frame version ptk))
        (.ok [.send (h.signedMsg2 P eapol frame version ptk), .armTimer retryIntervalMs])
  | message3 (bytes eapol frame ptk keyData gtk) : Message3 P h bytes eapol frame ptk keyData gtk →
      Step h (.frame bytes) (h.afterMsg3 frame)
        (.ok ([.send (h.signedMsg4 P frame ptk), .disarmTimer] ++
          completion (h.state = .awaitingMsg3) { ptk, gtk }))
  | groupMessage1 (bytes eapol frame ptk keyData gtk) :
      GroupMessage1 P h bytes eapol frame ptk keyData gtk →
      Step h (.frame bytes) { h with rxCounter := some frame.replayCounter }
        (.ok [.send (h.signedGroupMsg2 P frame ptk), .newGtk gtk])
  | fail (i e) : Step h i { h with state := .failed } (.error e)

variable {P} {h h' : FourWay} {bytes : Bytes} {eapol : Eapol} {frame : KeyFrame}
  {actions : List Action}

theorem replayed_eq_false :
    h.replayed frame = false ↔ ∀ seen, h.rxCounter = some seen → seen < frame.replayCounter := by
  unfold replayed
  cases h.rxCounter with
  | none => simp
  | some seen => simp

theorem onMsg1_eq_ok (hok : h.onMsg1 P eapol frame = .ok (h', actions)) :
    ∃ version ptk, frame.keyInfo.version h.config.akm = .ok version ∧
      h.ptkOf P frame.keyNonce = .ok ptk ∧
      h' = h.afterMsg1 eapol frame version ptk (h.signedMsg2 P eapol frame version ptk) ∧
      actions = [.send (h.signedMsg2 P eapol frame version ptk), .armTimer retryIntervalMs] := by
  simp only [onMsg1, Except.bind_eq_ok, Eapol.liftCrypto_eq_ok, Except.pure_eq_ok,
    Prod.mk.injEq] at hok
  obtain ⟨version, hver, ptk, hptk, rfl, rfl⟩ := hok
  exact ⟨version, ptk, hver, hptk, rfl, rfl⟩

theorem onMsg3_eq_ok {install : Bool} (hok : h.onMsg3 P eapol frame install = .ok (h', actions)) :
    ∃ ptk keyData gtk, h.ptk = some ptk ∧
      verifyFrameMic P eapol.raw ptk.kck h.descriptorVersion frame.keyMic = .ok () ∧
      frame.keyNonce = h.anonce ∧ frame.keyInfo.encrypted = true ∧
      unwrapKeyData P ptk.kek frame.keyData = .ok keyData ∧
      rsnElement keyData = some h.config.beaconRsnIe ∧ gtkKde keyData = .ok gtk ∧
      h' = h.afterMsg3 frame ∧ actions = [.send (h.signedMsg4 P frame ptk), .disarmTimer] ++
        completion install { ptk, gtk } := by
  unfold onMsg3 at hok
  cases hptk : h.ptk with
  | none => simp [hptk] at hok
  | some ptk =>
    simp only [hptk, Except.bind_eq_ok] at hok
    obtain ⟨⟨⟩, hmic, hok⟩ := hok
    split_ifs at hok with hnonce henc
    simp only [Except.bind_eq_ok, Eapol.liftCrypto_eq_ok] at hok
    obtain ⟨keyData, hdata, hok⟩ := hok
    cases hrsn : rsnElement keyData with
    | none => simp [hrsn] at hok
    | some advertised =>
      simp only [hrsn] at hok
      split_ifs at hok with hadv
      simp only [Except.bind_eq_ok, Except.pure_eq_ok, Prod.mk.injEq] at hok
      obtain ⟨gtk, hgtk, rfl, rfl⟩ := hok
      exact ⟨ptk, keyData, gtk, rfl, hmic, not_not.mp hnonce, by simpa using henc, hdata,
        by rw [hrsn, not_not.mp hadv], hgtk, rfl, rfl⟩

theorem onGroupMsg1_eq_ok (hok : h.onGroupMsg1 P eapol frame = .ok (h', actions)) :
    ∃ ptk keyData gtk, h.ptk = some ptk ∧
      verifyFrameMic P eapol.raw ptk.kck h.descriptorVersion frame.keyMic = .ok () ∧
      frame.keyInfo.encrypted = true ∧ unwrapKeyData P ptk.kek frame.keyData = .ok keyData ∧
      gtkKde keyData = .ok gtk ∧ h' = { h with rxCounter := some frame.replayCounter } ∧
      actions = [.send (h.signedGroupMsg2 P frame ptk), .newGtk gtk] := by
  unfold onGroupMsg1 at hok
  cases hptk : h.ptk with
  | none => simp [hptk] at hok
  | some ptk =>
    simp only [hptk, Except.bind_eq_ok] at hok
    obtain ⟨⟨⟩, hmic, hok⟩ := hok
    split_ifs at hok with henc
    simp only [Except.bind_eq_ok, Eapol.liftCrypto_eq_ok, Except.pure_eq_ok, Prod.mk.injEq] at hok
    obtain ⟨keyData, hdata, gtk, hgtk, rfl, rfl⟩ := hok
    exact ⟨ptk, keyData, gtk, rfl, hmic, by simpa using henc, hdata, hgtk, rfl, rfl⟩

theorem onFrame_eq_ok (hok : h.onFrame P bytes = .ok (h', actions)) :
    (h' = h ∧ actions = []) ∨ ∃ eapol frame, Incoming h bytes eapol frame ∧
      h.dispatch P eapol frame = .ok (h', actions) := by
  unfold onFrame at hok
  split_ifs at hok with hst
  simp only [Except.bind_eq_ok] at hok
  obtain ⟨eapol, heapol, hok⟩ := hok
  split_ifs at hok with hkey
  · simp only [Except.pure_eq_ok, Prod.mk.injEq] at hok
    exact .inl ⟨hok.1.symm, hok.2.symm⟩
  simp only [Except.bind_eq_ok] at hok
  obtain ⟨frame, hframe, hok⟩ := hok
  split_ifs at hok with hrsn hack hrep
  · simp only [Except.pure_eq_ok, Prod.mk.injEq] at hok
    exact .inl ⟨hok.1.symm, hok.2.symm⟩
  · simp only [Bool.or_eq_true, Bool.not_eq_true', not_or, Bool.not_eq_false,
      Bool.not_eq_true] at hack
    exact .inr ⟨eapol, frame, ⟨hst, heapol, not_not.mp hkey, hframe, not_not.mp hrsn, hack.1,
      hack.2, by simpa using hrep⟩, hok⟩

/-- **Every poll is one of the cases of `Step`.** -/
theorem poll_step (h : FourWay) (i : Input) : Step P h i (h.poll P i).1 (h.poll P i).2 := by
  unfold poll
  cases hres : h.handle P i with
  | error e => exact .fail i e
  | ok r =>
    obtain ⟨h', actions⟩ := r
    change Step P h i h' (.ok actions)
    cases i with
    | timeout =>
      simp only [handle, onTimeout] at hres
      cases hsent : h.lastSent with
      | none =>
        simp only [hsent, Except.ok.injEq, Prod.mk.injEq] at hres
        obtain ⟨rfl, rfl⟩ := hres
        exact .quiet hsent
      | some f =>
        simp only [hsent] at hres
        split_ifs at hres with hlim
        simp only [Except.ok.injEq, Prod.mk.injEq] at hres
        obtain ⟨rfl, rfl⟩ := hres
        simpa only [hsent] using Step.retransmit (P := P) f hsent (by omega)
    | frame bytes =>
      rcases onFrame_eq_ok hres with ⟨rfl, rfl⟩ | ⟨eapol, frame, hin, hdis⟩
      · exact .ignore bytes
      unfold dispatch at hdis
      split at hdis
      · rename_i hpair hmic
        obtain ⟨version, ptk, hver, hptk, rfl, rfl⟩ := onMsg1_eq_ok hdis
        exact .message1 bytes eapol frame version ptk ⟨hin, hpair, hmic, hver, hptk⟩
      · rename_i hst hpair hmic
        obtain ⟨ptk, keyData, gtk, hptk, hver, hnonce, henc, hdata, hrsn, hgtk, rfl, rfl⟩ :=
          onMsg3_eq_ok hdis
        have h3 : Message3 P h bytes eapol frame ptk keyData gtk :=
          ⟨⟨hin, hmic, hptk, hver, henc, hdata, hgtk⟩, hpair, .inl hst, hnonce, hrsn⟩
        simpa [hst] using Step.message3 bytes eapol frame ptk keyData gtk h3
      · rename_i hst hpair hmic
        obtain ⟨ptk, keyData, gtk, hptk, hver, hnonce, henc, hdata, hrsn, hgtk, rfl, rfl⟩ :=
          onMsg3_eq_ok hdis
        have h3 : Message3 P h bytes eapol frame ptk keyData gtk :=
          ⟨⟨hin, hmic, hptk, hver, henc, hdata, hgtk⟩, hpair, .inr hst, hnonce, hrsn⟩
        simpa [hst] using Step.message3 bytes eapol frame ptk keyData gtk h3
      · rename_i hst hpair hmic
        obtain ⟨ptk, keyData, gtk, hptk, hver, henc, hdata, hgtk, rfl, rfl⟩ := onGroupMsg1_eq_ok hdis
        exact .groupMessage1 bytes eapol frame ptk keyData gtk
          ⟨⟨hin, hmic, hptk, hver, henc, hdata, hgtk⟩, hpair, hst⟩
      · cases hdis

/-! ## What is answered -/

theorem Incoming.onFrame_eq (hin : Incoming h bytes eapol frame) :
    h.onFrame P bytes = h.dispatch P eapol frame := by
  unfold onFrame
  rw [if_neg hin.running, hin.header, Except.ok_bind, if_neg (not_not.mpr hin.isKey), hin.body,
    Except.ok_bind, if_neg (not_not.mpr hin.isRsn), if_neg (by simp [hin.ack, hin.noRequest]),
    if_neg (by simp [hin.fresh])]

theorem Incoming.poll_eq (hin : Incoming h bytes eapol frame)
    (hdis : h.dispatch P eapol frame = .ok (h', actions)) :
    h.poll P (.frame bytes) = (h', .ok actions) := by
  rw [poll, handle, hin.onFrame_eq, hdis]

/-- **Message 1 is answered with message 2.** -/
theorem Message1.poll_eq {version : KeyDescriptorVersion} {ptk : Ptk}
    (hm : Message1 P h bytes eapol frame version ptk) :
    h.poll P (.frame bytes) =
      (h.afterMsg1 eapol frame version ptk (h.signedMsg2 P eapol frame version ptk),
        .ok [.send (h.signedMsg2 P eapol frame version ptk), .armTimer retryIntervalMs]) := by
  apply hm.toIncoming.poll_eq
  have hd : h.dispatch P eapol frame = h.onMsg1 P eapol frame := by
    simp only [dispatch, hm.pairwise, hm.noMic]
  rw [hd, onMsg1, hm.versionOk, hm.derived]
  rfl

section Keyed

variable {ptk : Ptk} {keyData : Bytes} {gtk : Gtk}

/-- **Message 3 is answered with message 4**, and with the keys when none were installed. -/
theorem Message3.poll_eq (hm : Message3 P h bytes eapol frame ptk keyData gtk) :
    h.poll P (.frame bytes) = (h.afterMsg3 frame,
      .ok ([.send (h.signedMsg4 P frame ptk), .disarmTimer] ++
        completion (h.state = .awaitingMsg3) { ptk, gtk })) := by
  apply hm.toIncoming.poll_eq
  have hd : h.dispatch P eapol frame = h.onMsg3 P eapol frame (h.state = .awaitingMsg3) := by
    rcases hm.expected with hst | hst <;> simp [dispatch, hst, hm.pairwise, hm.mic]
  rw [hd, onMsg3]
  simp only [hm.current, hm.verified, hm.sameNonce, hm.encrypted, hm.unwrapped, hm.sameRsn,
    hm.carries, Except.ok_bind, Eapol.liftCrypto_ok]
  rw [if_neg (not_not.mpr rfl), if_neg (by simp), if_neg (not_not.mpr rfl)]
  rfl

/-- **Group message 1 is answered with group message 2.** -/
theorem GroupMessage1.poll_eq (hm : GroupMessage1 P h bytes eapol frame ptk keyData gtk) :
    h.poll P (.frame bytes) = ({ h with rxCounter := some frame.replayCounter },
      .ok [.send (h.signedGroupMsg2 P frame ptk), .newGtk gtk]) := by
  apply hm.toIncoming.poll_eq
  have hd : h.dispatch P eapol frame = h.onGroupMsg1 P eapol frame := by
    simp [dispatch, hm.expected, hm.group, hm.mic]
  rw [hd, onGroupMsg1]
  simp only [hm.current, hm.verified, hm.encrypted, hm.unwrapped, hm.carries, Except.ok_bind,
    Eapol.liftCrypto_ok]
  rfl

end Keyed

end FourWay

end Caw
