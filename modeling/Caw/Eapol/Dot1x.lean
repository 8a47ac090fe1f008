import Caw.Eapol.FourWay
import Caw.Lib.Machine

/-!
# 802.1X: a PMK from an EAP conversation

* `EapPacket`: the packet an EAPOL frame of type 0 carries;
* `EapMethod`: one method, with whatever replies and errors it has;
* `Dot1xProvider`, `call`: the outer conversation, as a machine;
* `accept_goes`, **`call_step`**: what one call can do to the provider;
* **`call_drives`**: what it does with the method, whose error ends the conversation;
* **`over_refuses`**: a provider that is no longer running refuses every EAP frame;
* **`conversation_run`**: one PMK at most, out of an MSK and on a success; and nothing after it.
-/

set_option autoImplicit false

namespace Caw

open Eapol (Error PacketType)
open Machine (Entry entry log exec Along)

/-! ## EAP packets -/

/-- Code, Identifier, Length. -/
abbrev eapHdrLen : ℕ := 4

namespace EapType

/-- The one type every peer must implement. -/
def identity : UInt8 := 1

/-- A displayable message. -/
def notification : UInt8 := 2

/-- "Not that method — one of these instead." -/
def nak : UInt8 := 3

end EapType

/-- The Code field. -/
inductive EapCode where
  | request
  | response
  | success
  | failure
deriving DecidableEq

namespace EapCode

/-- The EAP code a number stands for. -/
def fromU8 (v : UInt8) : Except Error EapCode :=
  if v = 1 then .ok request
  else if v = 2 then .ok response
  else if v = 3 then .ok success
  else if v = 4 then .ok failure
  else .error (.unsupportedEapCode v)

/-- The code on the wire. -/
def toU8 : EapCode → UInt8
  | request => 1
  | response => 2
  | success => 3
  | failure => 4

end EapCode

/-- One EAP packet. -/
structure EapPacket where
  code : EapCode
  /-- Echoed by the response. -/
  identifier : UInt8
  /-- Everything after the header, trimmed to the declared Length. -/
  data : Bytes
deriving DecidableEq

namespace EapPacket

/-- Read an EAP packet. -/
def parse (buf : Bytes) : Except Error EapPacket :=
  match buf with
  | code :: identifier :: hi :: lo :: rest => do
    let declared := Bytes.ofBE [hi, lo]
    if declared < eapHdrLen then .error .malformed
    else if rest.length < declared - eapHdrLen then .error .malformed
    else
      let code ← EapCode.fromU8 code
      return { code, identifier, data := rest.take (declared - eapHdrLen) }
  | _ => .error .malformed

/-- The method type, for the two codes that carry one. -/
def eapType (p : EapPacket) : Option UInt8 :=
  match p.code with
  | .request | .response => p.data.head?
  | .success | .failure => none

/-- The payload after the Type octet. -/
def typeData (p : EapPacket) : Bytes := p.data.drop 1

/-- Build a packet; there is none, but a panic, for a payload its length field cannot hold. -/
def encode (code : EapCode) (identifier : UInt8) (payload : Bytes) : Option Bytes :=
  let len := eapHdrLen + payload.length
  if len < 65536 then some ([code.toU8, identifier] ++ Bytes.toBE 2 len ++ payload) else none

/-- A Response of one method type. -/
def response (identifier : UInt8) (eapType : UInt8) (typeData : Bytes) : Option Bytes :=
  encode .response identifier (eapType :: typeData)

/-- "I cannot do the method you asked for, offer me one of these instead." -/
def nak (identifier : UInt8) (desired : Bytes) : Option Bytes :=
  if desired.isEmpty then response identifier EapType.nak [0]
  else response identifier EapType.nak desired

end EapPacket

/-! ## The provider -/

/-- Collapse this layer's errors into the providers' vocabulary. -/
def Eapol.Error.toCrypto : Eapol.Error → Crypto.Error
  | .crypto inner => inner
  | .rejected | .prematureSuccess | .timeout => .authFailed
  | .malformed | .fragmentOutOfOrder | .fragmentTooLarge | .unsupportedPacketType _
  | .unsupportedEapCode _ | .unsupportedDescriptor _ => .malformed
  | .tls _ | .noCryptoProvider | .certificateStore _ => .authFailed
  | _ => .protocol

/-- One EAP method inside an 802.1X exchange: `M` is its state. -/
structure EapMethod (M : Type) where
  typeCode : M → UInt8
  /-- Handle an EAP-Request, returning the EAP-Response payload. -/
  onRequest : M → Bytes → M × Except Error (Option Bytes)
  /-- The Master Session Key, once the method has succeeded. -/
  msk : M → Option (Octets 64)

/-- The first 32 octets of the Master Session Key. -/
def pmkFromMsk (msk : Octets 64) : Pmk := Bytes.slice 0 32 msk.toList

namespace Dot1x

/-- Where the conversation stands. -/
inductive State where
  /-- Waiting for the authenticator to open the conversation. -/
  | running
  /-- An MSK is available and the PMK has been handed out. -/
  | done
  /-- Rejected or aborted. -/
  | failed
deriving DecidableEq

end Dot1x

/-- 802.1X authentication, driving one method to obtain a PMK. -/
structure Dot1xProvider (M : Type) where
  identity : String
  method : M
  state : Dot1x.State
  /-- The last EAPOL frame we produced, replayed when the authenticator repeats a request. -/
  lastResponse : Option Bytes
  /-- The identifier `lastResponse` answers. -/
  answered : Option UInt8
  /-- Mirrored from the authenticator. -/
  protocolVersion : UInt8
  /-- Consecutive timeouts with no progress; the limit keeps it far from wrapping. -/
  idleRounds : ℕ

namespace Dot1xProvider

variable {M : Type} (method : EapMethod M)

/-- A provider before the conversation. -/
def new (identity : String) (m : M) : Dot1xProvider M :=
  { identity, method := m, state := .running, lastResponse := none, answered := none
    protocolVersion := 2, idleRounds := 0 }

/-- Wrap an EAP packet for transmission and remember it for a duplicate. Without a packet the call
has panicked. -/
def reply (p : Dot1xProvider M) (identifier : UInt8) (packet : Option Bytes) :
    Dot1xProvider M × Option (Except Error Step) :=
  match packet with
  | none => (p, none)
  | some packet =>
    let frame := Eapol.encode p.protocolVersion .eap packet
    ({ p with lastResponse := some frame, answered := some identifier, idleRounds := 0 },
      some (.ok (.send frame)))

/-- A request that is new: the identity, the method's own, or another that is declined. -/
def onRequest (p : Dot1xProvider M) (request : EapPacket) :
    Dot1xProvider M × Option (Except Error Step) :=
  match request.eapType with
  | none => (p, some (.error .malformed))
  | some requested =>
    let id := request.identifier
    if requested = EapType.identity then
      p.reply id (EapPacket.response id EapType.identity (octetsOf p.identity))
    else if requested = EapType.notification then
      p.reply id (EapPacket.response id EapType.notification [])
    else if requested ≠ method.typeCode p.method then
      p.reply id (EapPacket.nak id [method.typeCode p.method])
    else
      match method.onRequest p.method request.typeData with
      | (m, .error e) => ({ p with method := m }, some (.error e))
      | (m, .ok (some typeData)) =>
        reply { p with method := m } id (EapPacket.response id requested typeData)
      | (m, .ok none) => ({ p with method := m }, some (.ok .wait))

/-- The response to replay, if the request is the one answered last. -/
def duplicate (p : Dot1xProvider M) (packet : EapPacket) : Option Bytes :=
  if p.answered = some packet.identifier then p.lastResponse else none

/-- An EAP packet, by its code. -/
def onEap (p : Dot1xProvider M) (packet : EapPacket) :
    Dot1xProvider M × Option (Except Error Step) :=
  match packet.code with
  | .response => (p, some (.ok .wait))
  | .request =>
    match p.duplicate packet with
    | some frame => ({ p with idleRounds := 0 }, some (.ok (.send frame)))
    | none => p.onRequest method packet
  | .success =>
    -- A success proves nothing; it is honoured once the method has key material.
    match method.msk p.method with
    | none => (p, some (.error .prematureSuccess))
    | some msk =>
      ({ p with state := .done, lastResponse := none }, some (.ok (.done (pmkFromMsk msk))))
  | .failure => (p, some (.error .rejected))

/-- A frame, before a failure is taken down. -/
def accept (p : Dot1xProvider M) (frame : Bytes) :
    Dot1xProvider M × Option (Except Error Step) :=
  match Eapol.parse frame with
  | .error e => (p, some (.error e))
  | .ok eapol =>
    if eapol.packetType ≠ .eap then (p, some (.ok .wait))
    else if p.state ≠ .running then (p, some (.error .unexpectedMessage))
    else
      let p := { p with protocolVersion := eapol.version }
      if eapol.body.length < eapHdrLen then (p, some (.ok .wait))
      else
        match EapPacket.parse eapol.body with
        | .error e => (p, some (.error e))
        | .ok packet => p.onEap method packet

/-- What a call returns; nothing if it panics. -/
abbrev Outcome : Type := Option (Except Crypto.Error Step)

/-- A frame of the authenticator; an error ends the conversation. -/
def onFrame (p : Dot1xProvider M) (frame : Bytes) : Dot1xProvider M × Outcome :=
  match p.accept method frame with
  | (p, none) => (p, none)
  | (p, some (.ok step)) => (p, some (.ok step))
  | (p, some (.error e)) => ({ p with state := .failed }, some (.error e.toCrypto))

/-- Nothing has come: one idle round more, and too many end the conversation. -/
def onTimeout (p : Dot1xProvider M) : Dot1xProvider M × Outcome :=
  if p.state ≠ .running then (p, some (.error (Error.toCrypto .unexpectedMessage)))
  else
    let p := { p with idleRounds := p.idleRounds + 1 }
    if retryLimit < p.idleRounds then
      ({ p with state := .failed }, some (.error (Error.toCrypto .timeout)))
    else (p, some (.ok .wait))

/-! ## The provider as a machine -/

/-- A call of the provider. -/
inductive Input where
  | start
  | frame (bytes : Bytes)
  | timeout

/-- One call; to begin with there is nothing to send. -/
def call (p : Dot1xProvider M) : Input → Dot1xProvider M × Outcome
  | .start => (p, some (.ok .wait))
  | .frame bytes => p.onFrame method bytes
  | .timeout => p.onTimeout

/-! ## What a frame can do -/

section Frame

variable {method} {p p' : Dot1xProvider M} {frame : Bytes}

/-- The frame is an EAP frame. -/
def IsEap (frame : Bytes) : Prop := ∃ eapol, Eapol.parse frame = .ok eapol ∧ eapol.packetType = .eap

/-- The frame is an EAP-Success. -/
def IsSuccess (frame : Bytes) : Prop := ∃ eapol packet, Eapol.parse frame = .ok eapol ∧
  eapol.packetType = .eap ∧ EapPacket.parse eapol.body = .ok packet ∧ packet.code = .success

/-- The PMK a call returns. -/
def donePmk : Outcome → Option Pmk
  | some (.ok (.done pmk)) => some pmk
  | _ => none

theorem donePmk_eq_some {o : Outcome} {pmk : Pmk} :
    donePmk o = some pmk ↔ o = some (.ok (.done pmk)) := by
  rcases o with _ | e | _ | _ | _ <;> simp [donePmk]

/-- What comes of a packet: the PMK of a success, or a conversation that goes on as it was. -/
def Goes (method : EapMethod M) (p p' : Dot1xProvider M) (success : Prop)
    (o : Option (Except Error Step)) : Prop :=
  (success ∧ p'.state = .done ∧ ∃ msk, method.msk p.method = some msk ∧
      o = some (.ok (.done (pmkFromMsk msk)))) ∨
    (p'.state = p.state ∧ ∀ pmk, o ≠ some (.ok (.done pmk)))

theorem goes_reply (success : Prop) (m : M) (identifier : UInt8) (packet : Option Bytes) :
    Goes method p (reply { p with method := m } identifier packet).1 success
      (reply { p with method := m } identifier packet).2 := by
  cases packet <;> exact Or.inr ⟨rfl, nofun⟩

theorem onRequest_goes (success : Prop) (request : EapPacket) :
    Goes method p (p.onRequest method request).1 success (p.onRequest method request).2 := by
  rw [onRequest]
  cases request.eapType with
  | none => exact Or.inr ⟨rfl, nofun⟩
  | some requested =>
    simp only
    split_ifs
    · exact goes_reply success p.method _ _
    · exact goes_reply success p.method _ _
    · exact goes_reply success p.method _ _
    · rcases method.onRequest p.method request.typeData with ⟨m, e | _ | typeData⟩
      · exact Or.inr ⟨rfl, nofun⟩
      · exact Or.inr ⟨rfl, nofun⟩
      · exact goes_reply success m _ _

theorem onEap_goes (packet : EapPacket) :
    Goes method p (p.onEap method packet).1 (packet.code = .success) (p.onEap method packet).2 := by
  rw [onEap]
  cases packet.code with
  | response => exact Or.inr ⟨rfl, nofun⟩
  | request =>
    cases p.duplicate packet with
    | none => exact onRequest_goes _ packet
    | some frame => exact Or.inr ⟨rfl, nofun⟩
  | success =>
    cases hmsk : method.msk p.method with
    | none => exact Or.inr ⟨rfl, nofun⟩
    | some msk => exact Or.inl ⟨rfl, rfl, msk, hmsk, rfl⟩
  | failure => exact Or.inr ⟨rfl, nofun⟩

theorem Goes.mono {success success' : Prop} {o : Option (Except Error Step)}
    (h : Goes method p p' success o) (hs : success → success') : Goes method p p' success' o :=
  h.imp_left fun ⟨hsuccess, hrest⟩ => ⟨hs hsuccess, hrest⟩

theorem accept_goes (frame : Bytes) : Goes method p (p.accept method frame).1
    (p.state = .running ∧ IsSuccess frame) (p.accept method frame).2 := by
  rw [accept]
  cases hparse : Eapol.parse frame with
  | error e => exact Or.inr ⟨rfl, nofun⟩
  | ok eapol =>
    simp only
    split_ifs with heap hrun hlen
    · exact Or.inr ⟨rfl, nofun⟩
    · exact Or.inr ⟨rfl, nofun⟩
    · exact Or.inr ⟨rfl, nofun⟩
    · cases hpacket : EapPacket.parse eapol.body with
      | error e => exact Or.inr ⟨rfl, nofun⟩
      | ok packet =>
        refine Goes.mono (onEap_goes (p := { p with protocolVersion := eapol.version }) packet) ?_
        exact fun hcode =>
          ⟨not_not.mp hrun, eapol, packet, hparse, not_not.mp heap, hpacket, hcode⟩

/-- A call ends the conversation: it returns a PMK, or an error. -/
def Ends (o : Outcome) : Prop := (∃ pmk, o = some (.ok (.done pmk))) ∨ ∃ e, o = some (.error e)

/-- **One call.** A PMK is returned by a running provider, on a success with an MSK; and what ends
the conversation leaves the provider no longer running. -/
theorem call_step (p : Dot1xProvider M) (i : Input) :
    (∀ pmk, donePmk (p.call method i).2 = some pmk → p.state = .running ∧ ∃ frame msk,
      i = .frame frame ∧ IsSuccess frame ∧ method.msk p.method = some msk ∧ pmk = pmkFromMsk msk) ∧
    (p.state ≠ .running ∨ Ends (p.call method i).2 → (p.call method i).1.state ≠ .running) := by
  cases i with
  | start => exact ⟨nofun, fun h => h.resolve_right (by rintro (⟨_, h⟩ | ⟨_, h⟩) <;> cases h)⟩
  | timeout =>
    rw [call, onTimeout]
    by_cases hrun : p.state = .running
    · rw [if_neg (not_not.mpr hrun)]
      simp only
      split_ifs
      · exact ⟨nofun, fun _ => nofun⟩
      · refine ⟨nofun, ?_⟩
        rintro (h | ⟨_, h⟩ | ⟨_, h⟩)
        · exact h
        · cases h
        · cases h
    · rw [if_pos hrun]
      exact ⟨nofun, fun _ => hrun⟩
  | frame frame =>
    have hgoes : Goes method p (p.accept method frame).1 _ _ := accept_goes frame
    rw [call, onFrame]
    generalize p.accept method frame = r at hgoes ⊢
    obtain ⟨p', _ | e | step⟩ := r
    · obtain ⟨-, -, _, -, h⟩ | ⟨hstate, -⟩ := hgoes
      · cases h
      · refine ⟨nofun, ?_⟩
        rintro (h | ⟨_, h⟩ | ⟨_, h⟩)
        · rwa [← hstate] at h
        · cases h
        · cases h
    · exact ⟨nofun, fun _ => nofun⟩
    · obtain ⟨⟨hrun, hsuccess⟩, hdone, msk, hmsk, h⟩ | ⟨hstate, hne⟩ := hgoes
      · cases h
        refine ⟨?_, fun _ => hdone.trans_ne nofun⟩
        rintro pmk ⟨⟩
        exact ⟨hrun, frame, msk, rfl, hsuccess, hmsk, rfl⟩
      · refine ⟨fun pmk hpmk => ?_, ?_⟩
        · cases step with
          | done pmk' => exact absurd rfl (hne pmk')
          | send _ | wait => cases hpmk
        · rintro (h | ⟨pmk, h⟩ | ⟨_, h⟩)
          · rwa [← hstate] at h
          · cases h
            exact absurd rfl (hne pmk)
          · cases h

/-- What becomes of the method: nothing, or one request, whose error ends the conversation. -/
def Drives (method : EapMethod M) (p p' : Dot1xProvider M) (failed : Prop) : Prop :=
  p'.method = p.method ∨ ∃ data, p'.method = (method.onRequest p.method data).1 ∧
    ((∃ err, (method.onRequest p.method data).2 = .error err) → failed)

theorem reply_method (m : M) (identifier : UInt8) (packet : Option Bytes) :
    (reply { p with method := m } identifier packet).1.method = m := by
  cases packet <;> rfl

theorem accept_drives (frame : Bytes) : Drives method p (p.accept method frame).1
    (∃ e, (p.accept method frame).2 = some (.error e)) := by
  have honRequest : ∀ (p : Dot1xProvider M) request, Drives method p (p.onRequest method request).1
      (∃ e, (p.onRequest method request).2 = some (.error e)) := by
    intro p request
    rw [onRequest]
    cases request.eapType with
    | none => exact .inl rfl
    | some requested =>
      simp only
      split_ifs
      · exact .inl (reply_method p.method _ _)
      · exact .inl (reply_method p.method _ _)
      · exact .inl (reply_method p.method _ _)
      · refine .inr ⟨request.typeData, ?_⟩
        rcases method.onRequest p.method request.typeData with ⟨m, e | _ | typeData⟩
        · exact ⟨rfl, fun _ => ⟨e, rfl⟩⟩
        · refine ⟨rfl, ?_⟩
          rintro ⟨err, herr⟩
          cases herr
        · refine ⟨reply_method m _ _, ?_⟩
          rintro ⟨err, herr⟩
          cases herr
  rw [accept]
  cases Eapol.parse frame with
  | error e => exact .inl rfl
  | ok eapol =>
    simp only
    split_ifs
    · exact .inl rfl
    · exact .inl rfl
    · exact .inl rfl
    · cases EapPacket.parse eapol.body with
      | error e => exact .inl rfl
      | ok packet =>
        simp only
        rw [onEap]
        cases packet.code with
        | response => exact .inl rfl
        | failure => exact .inl rfl
        | request =>
          cases duplicate { p with protocolVersion := eapol.version } packet with
          | some frame => exact .inl rfl
          | none => exact honRequest { p with protocolVersion := eapol.version } packet
        | success =>
          cases method.msk p.method with
          | none => exact .inl rfl
          | some msk => exact .inl rfl

/-- **What a call does with the method.** -/
theorem call_drives (p : Dot1xProvider M) (i : Input) :
    Drives method p (p.call method i).1 ((p.call method i).1.state ≠ .running) := by
  cases i with
  | start => exact .inl rfl
  | timeout =>
    rw [call, onTimeout]
    simp only
    split_ifs <;> exact .inl rfl
  | frame frame =>
    have hdrives : Drives method p (p.accept method frame).1 _ := accept_drives frame
    rw [call, onFrame]
    generalize p.accept method frame = r at hdrives ⊢
    rcases hdrives with hsame | ⟨data, hmethod, hfailed⟩
    · obtain ⟨p', _ | e | step⟩ := r <;> exact .inl hsame
    · refine .inr ⟨data, ?_⟩
      obtain ⟨p', _ | e | step⟩ := r
      · refine ⟨hmethod, fun herr => ?_⟩
        obtain ⟨e, he⟩ := hfailed herr
        cases he
      · exact ⟨hmethod, fun _ hrun => by cases hrun⟩
      · refine ⟨hmethod, fun herr => ?_⟩
        obtain ⟨e, he⟩ := hfailed herr
        cases he

/-- **Whoever has ended refuses every EAP frame** and leaves the method alone. -/
theorem over_refuses (h : p.state ≠ .running) (heap : IsEap frame) :
    p.onFrame method frame = ({ p with state := .failed }, some (.error .protocol)) := by
  obtain ⟨eapol, hparse, htype⟩ := heap
  have haccept : p.accept method frame = (p, some (.error .unexpectedMessage)) := by
    rw [accept, hparse]
    simp only [htype, ne_eq, not_true_eq_false, if_false, if_pos h]
  rw [onFrame, haccept]
  rfl

end Frame

/-! ## Runs -/

variable (method : EapMethod M)

/-- A step of a provider's run. -/
abbrev Event (M : Type) : Type := Entry (Dot1xProvider M) Input Outcome

/-- The PMKs a history returned. -/
def pmksOf (past : List (Event M)) : List Pmk := past.filterMap fun e => donePmk e.output

/-- A PMK comes of a success, and is the first half of the MSK there is. -/
def Grants (e : Event M) : Prop :=
  ∀ pmk, donePmk e.output = some pmk → ∃ frame msk, e.input = .frame frame ∧ IsSuccess frame ∧
    method.msk e.pre.method = some msk ∧ pmk.toList = msk.toList.take 32

/-- Once the conversation has ended an EAP frame is answered with an error, and does not reach the
method. -/
def Refuses (past : List (Event M)) (e : Event M) : Prop :=
  (∃ e' ∈ past, Ends e'.output) → ∀ frame, e.input = .frame frame → IsEap frame →
    (∃ err, e.output = some (.error err)) ∧ e.post.method = e.pre.method

/-- The history of a running provider has no end in it. -/
structure Tells (past : List (Event M)) (p : Dot1xProvider M) : Prop where
  once : (pmksOf past).length ≤ 1
  fresh : p.state = .running → pmksOf past = []
  ended : (∃ e ∈ past, Ends e.output) → p.state ≠ .running

variable {method} in
theorem Tells.step {past : List (Event M)} {p : Dot1xProvider M} (h : Tells past p) (i : Input) :
    Tells (past ++ [entry (call method) p i]) (p.call method i).1 := by
  obtain ⟨hgrant, hend⟩ := @call_step _ method p i
  have hpmks : pmksOf (past ++ [entry (call method) p i]) =
      pmksOf past ++ (donePmk (p.call method i).2).toList := by
    rw [pmksOf, List.filterMap_append]
    rfl
  have hover : (p.call method i).1.state = .running →
      p.state = .running ∧ ¬ Ends (p.call method i).2 := by
    intro hrun
    constructor
    · by_contra hne
      exact hend (Or.inl hne) hrun
    · exact fun h => hend (Or.inr h) hrun
  refine ⟨?_, fun hrun => ?_, ?_⟩
  · rw [hpmks]
    cases hpmk : donePmk (p.call method i).2 with
    | none => simpa using h.once
    | some pmk => rw [h.fresh (hgrant pmk hpmk).1]; rfl
  · obtain ⟨hwas, hnot⟩ := hover hrun
    rw [hpmks, h.fresh hwas]
    cases hpmk : donePmk (p.call method i).2 with
    | none => rfl
    | some pmk =>
      exact absurd (Or.inl ⟨pmk, donePmk_eq_some.mp hpmk⟩) hnot
  · rintro ⟨e, he, hends⟩ hrun
    obtain ⟨hwas, hnot⟩ := hover hrun
    rcases List.mem_append.mp he with he | he
    · exact h.ended ⟨e, he, hends⟩ hwas
    · rw [List.mem_singleton.mp he] at hends
      exact hnot hends

/-- **A conversation.** At most one PMK is returned, out of an MSK and on a success; and after it, or
after an error, every EAP frame is refused. -/
theorem conversation_run (identity : String) (m : M) (inputs : List Input) :
    (pmksOf (log (call method) (new identity m) inputs)).length ≤ 1 ∧
      Along (fun past e => Grants method e ∧ Refuses past e)
        (log (call method) (new identity m) inputs) := by
  have hinit : Tells [] (new identity m) := ⟨Nat.zero_le 1, fun _ => rfl,
    fun ⟨_, hmem, _⟩ => absurd hmem List.not_mem_nil⟩
  have hP : ∀ past p i, Tells past p → True → Grants method (entry (call method) p i) ∧
      Refuses past (entry (call method) p i) := by
    intro past p i h _
    refine ⟨fun pmk hpmk => ?_, ?_⟩
    · obtain ⟨-, frame, msk, hi, hsuccess, hmsk, rfl⟩ := (call_step p i).1 pmk hpmk
      refine ⟨frame, msk, hi, hsuccess, hmsk, ?_⟩
      rw [pmkFromMsk, Bytes.slice_toList 0 32 _ (by simp), List.drop_zero]
    · rintro hends frame hi heap
      have hrefuse := @over_refuses _ method _ _ (h.ended hends) heap
      rw [Machine.entry_input] at hi
      rw [Machine.entry_output, Machine.entry_post, Machine.entry_pre, hi, call, hrefuse]
      exact ⟨⟨.protocol, rfl⟩, rfl⟩
  have hstep : ∀ past p i, Tells past p → True →
      Tells (past ++ [entry (call method) p i]) (p.call method i).1 :=
    fun past p i h _ => h.step i
  have hall : Along (fun _ _ => True) (log (call method) (new identity m) inputs) :=
    fun _ _ _ _ => trivial
  exact ⟨(Machine.run_induction hinit hstep inputs hall).once,
    Machine.along_of_inv hinit hstep hP inputs hall⟩

end Dot1xProvider

end Caw
