import Caw.Core.Conn
import Caw.Crypto.SaeChecked
import Caw.Eapol.Checked

/-!
# A poll that reads within bounds

A poll of the connection with every index, range and `expect` of the source checked, down to the
handshake and the SAE exchange it drives: what may panic does, and the poll is none.

* `Connection.authBodyChecked`, `driveSaeChecked`, `driveHandshakeChecked`, `onEapolChecked`: what reads
  the octets of a frame;
* `Connection.pollChecked`: a poll;
* **`Connection.authBodyChecked_eq`**: behind its length guard a management frame is read within its
  bounds;
* **`Connection.pollChecked_eq`**: no read of any poll panics.
-/

set_option autoImplicit false

namespace Caw

open Bytes
open Caw.Core

namespace Connection

variable {S : Platform} (c : Connection S) (draws : Draws S)

/-- The body of an authentication frame of the access point, if that is what the frame is. -/
def authBodyChecked (frame : Bytes) : Option (Option Bytes) :=
  match c.session with
  | none => some none
  | some session =>
    if frame.length < mgmtHeaderLen then some none
    else do
      let control ← readAt frame 0
      if control ≠ fcAuth then some none
      else
        let transmitter ← readRange frame 10 16
        if transmitter ≠ session.choice.bssid.toList then some none
        else
          let body ← readFrom frame mgmtHeaderLen
          some (some body)

/-- **Behind its length guard** a management frame is read within its bounds. -/
theorem authBodyChecked_eq (frame : Bytes) : c.authBodyChecked frame = some (c.authBody frame) := by
  unfold authBodyChecked authBody
  cases c.session with
  | none => rfl
  | some session =>
    rw [Option.bind_some]
    dsimp only
    by_cases hshort : frame.length < mgmtHeaderLen
    · rw [if_pos hshort, if_pos (Or.inl hshort)]
    have hheader : mgmtHeaderLen = 24 := rfl
    have hhead : frame.headD 0 = frame[0] := by
      cases frame with
      | nil => exact absurd (by decide) hshort
      | cons x xs => rfl
    have hslice : (frame.take 16).drop 10 = (slice 10 6 frame).toList := by
      rw [slice_toList 10 6 frame (by omega), List.drop_take]
    rw [if_neg hshort, readAt_of_lt (by omega), readRange_of_le (by omega) (by omega),
      readFrom_of_le (by omega), hhead, hslice]
    by_cases hcontrol : frame[0] ≠ fcAuth
    · rw [if_pos (Or.inr hcontrol)]
      exact if_pos hcontrol
    rw [if_neg (not_or.mpr ⟨hshort, hcontrol⟩)]
    change (if _ then _ else _) = _
    rw [if_neg hcontrol]
    change (if _ then _ else _) = _
    by_cases hbssid : slice 10 6 frame = session.choice.bssid
    · rw [if_neg (not_not.mpr (congrArg _ hbssid)), if_neg (not_not.mpr hbssid)]
      rfl
    · rw [if_pos fun h => hbssid (List.Vector.toList_injective h), if_pos hbssid]

/-- A call of the exchange that is under way. -/
def saeCallChecked (provider : SaeProvider S.curve) (ctx : AuthContext) :
    SaeEvent → SaeProvider S.curve × Except Crypto.Fault Step
  | .frame bytes => provider.onFrameChecked S.prim bytes
  | event => saeCall provider ctx event

theorem saeCallChecked_eq (provider : SaeProvider S.curve) (ctx : AuthContext) (event : SaeEvent) :
    saeCallChecked provider ctx event = saeCall provider ctx event := by
  cases event with
  | frame bytes => exact SaeProvider.onFrameChecked_eq bytes
  | start => rfl
  | timeout => rfl

/-- The pre-association provider fed one event. -/
def driveSaeChecked (event : SaeEvent) : Option (Connection S × List Action) :=
  match c.target, c.session with
  | some target, some session =>
    match session.auth with
    | .preAssoc provider =>
      let r := saeCallChecked provider (authContext target.ssid session.choice c.device.mac) event
      (c.withSession (session.withAuth (.preAssoc r.1))).onSaeStep r.2
    | _ => some (c, [])
  | _, _ => some (c, [])

theorem driveSaeChecked_eq (event : SaeEvent) : c.driveSaeChecked event = c.driveSae event := by
  unfold driveSaeChecked driveSae
  cases c.target with
  | none => rfl
  | some target =>
    cases c.session with
    | none => rfl
    | some session =>
      dsimp only
      cases session.auth with
      | preAssoc provider =>
        dsimp only
        rw [saeCallChecked_eq]
      | _ => rfl

/-- The handshake fed one input. -/
def driveHandshakeChecked (input : FourWay.Input) : Option (Connection S × List Action) :=
  match c.session with
  | none => some (c, [])
  | some session =>
    match session.handshake with
    | none => some (c, [])
    | some handshake => do
      let r ← handshake.pollChecked S.prim input
      (c.withSession (session.withHandshake r.1)).onHandshakeActions r.2

theorem driveHandshakeChecked_eq (input : FourWay.Input) :
    c.driveHandshakeChecked input = c.driveHandshake input := by
  simp only [driveHandshakeChecked, driveHandshake, FourWay.pollChecked_eq]
  rfl

/-- A frame of the EAPOL port, with every read checked. -/
def onEapolChecked (frame : Bytes) : Option (Connection S × List Action) :=
  if c.state ≠ .handshaking ∧ c.state ≠ .connected then some (c, [])
  else do
    match ← (Eapol.parseChecked frame).run with
    | .error _ => some (c, [])
    | .ok eapol =>
      match eapol.packetType with
      | .key => c.driveHandshakeChecked (.frame frame)
      | .eap => c.driveDot1x draws (some frame)
      | .start | .logoff => some (c, [])

theorem onEapolChecked_eq (frame : Bytes) : c.onEapolChecked draws frame = c.onEapol draws frame := by
  unfold onEapolChecked onEapol
  split_ifs
  · rfl
  rw [Eapol.parseChecked_eq, driveHandshakeChecked_eq]
  rfl

/-- An authentication frame of the kernel. -/
def onAuthenticateChecked (frame : Bytes) : Option (Connection S × List Action) :=
  if c.state ≠ .authenticating then some (c, [])
  else do
    match ← c.authBodyChecked frame with
    | some body => c.driveSaeChecked (.frame body)
    | none => some (c, [])

theorem onAuthenticateChecked_eq (frame : Bytes) :
    c.onAuthenticateChecked frame = c.onWireless draws (.authenticate frame) := by
  rw [onAuthenticateChecked, onWireless, authBodyChecked_eq]
  split_ifs
  · rfl
  simp only [driveSaeChecked_eq]
  rfl

/-- A poll; none where it panics. Only frames have octets to be read. -/
def pollChecked : Input → Option (Connection S × List Action)
  | .wireless (.authenticate frame) => c.onAuthenticateChecked frame
  | .eapol frame => c.onEapolChecked draws frame
  | input => c.poll draws input

/-- **No read of any poll panics.** -/
theorem pollChecked_eq (input : Input) : c.pollChecked draws input = c.poll draws input := by
  unfold pollChecked
  split
  · exact c.onAuthenticateChecked_eq draws _
  · exact c.onEapolChecked_eq draws _
  · rfl

end Connection

end Caw
