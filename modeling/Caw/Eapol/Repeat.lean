import Caw.Eapol.Dot1x

/-!
# Repeated requests

What a provider does with a request that comes again.

* `EapMethod.counted`, `call_forget`: a method that counts the requests it is handed, and is driven as
  it would be uncounted;
* `taken`, `Ignored`, `Repetition`: the request a call processes, a call that does nothing, and a
  request like the latest one processed;
* `Repeats`: the law of repetitions;
* `Silent`: the method had nothing to say to the request it was handed;
* `onRequest_cases`, `call_request_cases`, `call_other`: what the calls do to the stored response;
* **`Remembers.step`**: the invariant that ties the stored response to the latest request;
* **`repeats_run`**: the law holds of exactly the runs that repeat no silent request.
-/

set_option autoImplicit false

namespace Caw

open Eapol (Error)
open Machine (Entry entry log exec Along)

variable {M : Type}

/-- The method, and how often it has been handed a request. -/
def EapMethod.counted (method : EapMethod M) : EapMethod (M × ℕ) where
  typeCode m := method.typeCode m.1
  onRequest m data := (((method.onRequest m.1 data).1, m.2 + 1), (method.onRequest m.1 data).2)
  msk m := method.msk m.1

namespace Dot1xProvider

/-! ## Counting the calls -/

/-- The provider without its count. -/
def forget (p : Dot1xProvider (M × ℕ)) : Dot1xProvider M :=
  { identity := p.identity, method := p.method.1, state := p.state, lastResponse := p.lastResponse
    answered := p.answered, protocolVersion := p.protocolVersion, idleRounds := p.idleRounds }

theorem reply_forget (p : Dot1xProvider (M × ℕ)) (identifier : UInt8) (packet : Option Bytes) :
    p.forget.reply identifier packet =
      ((p.reply identifier packet).1.forget, (p.reply identifier packet).2) := by
  cases packet <;> rfl

theorem onRequest_forget (method : EapMethod M) (p : Dot1xProvider (M × ℕ)) (request : EapPacket) :
    p.forget.onRequest method request = ((p.onRequest method.counted request).1.forget,
      (p.onRequest method.counted request).2) := by
  rw [onRequest, onRequest]
  cases request.eapType with
  | none => rfl
  | some requested =>
    simp only
    rw [show method.counted.typeCode p.method = method.typeCode p.forget.method from rfl,
      show method.counted.onRequest p.method request.typeData =
        (((method.onRequest p.forget.method request.typeData).1, p.method.2 + 1),
          (method.onRequest p.forget.method request.typeData).2) from rfl]
    by_cases hid : requested = EapType.identity
    · rw [if_pos hid, if_pos hid]
      exact reply_forget p _ _
    by_cases hnote : requested = EapType.notification
    · rw [if_neg hid, if_neg hid, if_pos hnote, if_pos hnote]
      exact reply_forget p _ _
    by_cases htype : requested ≠ method.typeCode p.forget.method
    · rw [if_neg hid, if_neg hid, if_neg hnote, if_neg hnote, if_pos htype, if_pos htype]
      exact reply_forget p _ _
    rw [if_neg hid, if_neg hid, if_neg hnote, if_neg hnote, if_neg htype, if_neg htype]
    rcases method.onRequest p.forget.method request.typeData with ⟨m, e | _ | typeData⟩
    · rfl
    · rfl
    · exact reply_forget { p with method := (m, p.method.2 + 1) } _ _

/-- **Counting changes nothing.** -/
theorem call_forget (method : EapMethod M) (p : Dot1xProvider (M × ℕ)) (i : Input) :
    p.forget.call method i =
      ((p.call method.counted i).1.forget, (p.call method.counted i).2) := by
  have heap : ∀ (p : Dot1xProvider (M × ℕ)) packet, p.forget.onEap method packet =
      ((p.onEap method.counted packet).1.forget, (p.onEap method.counted packet).2) := by
    intro p packet
    rw [onEap, onEap]
    cases packet.code with
    | response => rfl
    | failure => rfl
    | request =>
      rw [show p.forget.duplicate packet = p.duplicate packet from rfl]
      cases p.duplicate packet with
      | some frame => rfl
      | none => exact onRequest_forget method p packet
    | success =>
      rw [show method.msk p.forget.method = method.counted.msk p.method from rfl]
      cases method.counted.msk p.method <;> rfl
  have haccept : ∀ frame, p.forget.accept method frame =
      ((p.accept method.counted frame).1.forget, (p.accept method.counted frame).2) := by
    intro frame
    rw [accept, accept]
    cases Eapol.parse frame with
    | error e => rfl
    | ok eapol =>
      simp only [show p.forget.state = p.state from rfl]
      split_ifs
      · rfl
      · rfl
      · rfl
      · cases EapPacket.parse eapol.body with
        | error e => rfl
        | ok packet => exact heap { p with protocolVersion := eapol.version } packet
  cases i with
  | start => rfl
  | timeout =>
    rw [call, call, onTimeout, onTimeout]
    by_cases hrun : p.state = .running <;> by_cases hlimit : retryLimit < p.idleRounds + 1 <;>
      simp [forget, hrun, hlimit]
  | frame frame =>
    rw [call, call, onFrame, onFrame, haccept frame]
    obtain ⟨p', _ | e | step⟩ := p.accept method.counted frame <;> rfl

/-! ## Repetitions -/

/-- The EAP request a frame carries. -/
def requestOf (frame : Bytes) : Option EapPacket :=
  match Eapol.parse frame with
  | .error _ => none
  | .ok eapol =>
    if eapol.packetType ≠ .eap then none
    else
      match EapPacket.parse eapol.body with
      | .error _ => none
      | .ok packet => if packet.code = .request then some packet else none

theorem requestOf_eq_some {frame : Bytes} {packet : EapPacket} (h : requestOf frame = some packet) :
    ∃ eapol, Eapol.parse frame = .ok eapol ∧ eapol.packetType = .eap ∧
      EapPacket.parse eapol.body = .ok packet ∧ packet.code = .request := by
  rw [requestOf] at h
  cases hparse : Eapol.parse frame with
  | error e =>
    rw [hparse] at h
    cases h
  | ok eapol =>
    rw [hparse] at h
    simp only at h
    split_ifs at h with heap
    cases hpacket : EapPacket.parse eapol.body with
    | error e =>
      rw [hpacket] at h
      cases h
    | ok packet' =>
      rw [hpacket] at h
      simp only at h
      split_ifs at h with hcode
      cases h
      exact ⟨eapol, rfl, not_not.mp heap, hpacket, hcode⟩

/-- The request a call brings. -/
def Input.request : Input → Option EapPacket
  | .start | .timeout => none
  | .frame bytes => requestOf bytes

/-- The request a running provider processes. -/
def taken (e : Event M) : Option EapPacket :=
  if e.pre.state = .running then e.input.request else none

/-- The call does nothing. -/
def Ignored (e : Event M) : Prop := e.output = some (.ok .wait) ∧ taken e = none

/-- The call brings a request with the identifier of the latest one processed, which is that of
`e₀`. -/
def Repetition (past : List (Event M)) (e₀ e : Event M) : Prop :=
  ∃ before between packet packet', past = before ++ e₀ :: between ∧ (∀ b ∈ between, Ignored b) ∧
    taken e₀ = some packet ∧ e.input.request = some packet' ∧ packet'.identifier = packet.identifier

/-- **The law of repetitions.** After a request that did not bring the provider down, its repetition
is not handed to the method, and has the outcome it had: the response again, or nothing. -/
def Repeats (past : List (Event (M × ℕ))) (e : Event (M × ℕ)) : Prop :=
  ∀ e₀, Repetition past e₀ e → e₀.output ≠ none → e.post.method.2 = e.pre.method.2 ∧
    ∀ step, e₀.output = some (.ok step) → e.output = some (.ok step)

/-- The method has nothing to say to the request. -/
def HasNothing (method : EapMethod M) (p : Dot1xProvider M) (packet : EapPacket) : Prop :=
  ∃ requested, packet.eapType = some requested ∧ requested ≠ EapType.identity ∧
    requested ≠ EapType.notification ∧ requested = method.typeCode p.method ∧
    (method.onRequest p.method packet.typeData).2 = .ok none

/-- The call processes a request that is not the one answered last, and to which the method has
nothing to say. -/
def Silent (method : EapMethod M) (e : Event M) : Prop :=
  ∃ packet, taken e = some packet ∧ e.pre.duplicate packet = none ∧ HasNothing method e.pre packet

/-- No request is repeated to which the method had nothing to say. -/
def Spoken (method : EapMethod M) (past : List (Event M)) (e : Event M) : Prop :=
  ∀ e₀, Repetition past e₀ e → ¬ Silent method e₀

/-! ## What a call does to the stored response -/

section Calls

variable {method : EapMethod M} {p : Dot1xProvider M} {packet : EapPacket}

theorem reply_cases (p : Dot1xProvider M) (identifier : UInt8) (packet : Option Bytes) :
    (∃ f, p.reply identifier packet =
      ({ p with lastResponse := some f, answered := some identifier, idleRounds := 0 },
        some (.ok (.send f)))) ∨ p.reply identifier packet = (p, none) := by
  cases packet with
  | none => exact .inr rfl
  | some packet => exact .inl ⟨_, rfl⟩

/-- A request is answered, the method has nothing to say to it, or it ends the conversation. -/
theorem onRequest_cases (method : EapMethod M) (p : Dot1xProvider M) (packet : EapPacket) :
    ∃ m, (∃ f, p.onRequest method packet =
        ({ p with method := m, lastResponse := some f, answered := some packet.identifier
                  idleRounds := 0 }, some (.ok (.send f)))) ∨
      (HasNothing method p packet ∧ m = (method.onRequest p.method packet.typeData).1 ∧
        p.onRequest method packet = ({ p with method := m }, some (.ok .wait))) ∨
      (∃ err, p.onRequest method packet = ({ p with method := m }, some (.error err))) ∨
      p.onRequest method packet = ({ p with method := m }, none) := by
  have hreply : ∀ m response, p.onRequest method packet =
      reply { p with method := m } packet.identifier response →
      (∃ f, p.onRequest method packet =
        ({ p with method := m, lastResponse := some f, answered := some packet.identifier
                  idleRounds := 0 }, some (.ok (.send f)))) ∨
        p.onRequest method packet = ({ p with method := m }, none) := by
    intro m response heq
    rw [heq]
    exact reply_cases _ _ _
  cases htype : packet.eapType with
  | none =>
    refine ⟨p.method, .inr (.inr (.inl ⟨.malformed, ?_⟩))⟩
    rw [onRequest, htype]
  | some requested =>
    by_cases hid : requested = EapType.identity
    · refine ⟨p.method, (hreply p.method (EapPacket.response packet.identifier EapType.identity
        (octetsOf p.identity)) ?_).imp_right fun h => .inr (.inr h)⟩
      rw [onRequest, htype]
      exact if_pos hid
    by_cases hnote : requested = EapType.notification
    · refine ⟨p.method, (hreply p.method (EapPacket.response packet.identifier EapType.notification
        []) ?_).imp_right fun h => .inr (.inr h)⟩
      rw [onRequest, htype]
      exact (if_neg hid).trans (if_pos hnote)
    by_cases hcode : requested ≠ method.typeCode p.method
    · refine ⟨p.method, (hreply p.method (EapPacket.nak packet.identifier
        [method.typeCode p.method]) ?_).imp_right fun h => .inr (.inr h)⟩
      rw [onRequest, htype]
      exact (if_neg hid).trans ((if_neg hnote).trans (if_pos hcode))
    -- The request is for the method.
    refine ⟨(method.onRequest p.method packet.typeData).1, ?_⟩
    rcases hcall : method.onRequest p.method packet.typeData with ⟨m, err | _ | typeData⟩
    · refine .inr (.inr (.inl ⟨err, ?_⟩))
      rw [onRequest, htype]
      simp only [if_neg hid, if_neg hnote, if_neg hcode, hcall]
    · have hnone : HasNothing method p packet :=
        ⟨requested, htype, hid, hnote, not_not.mp hcode, congrArg Prod.snd hcall⟩
      refine .inr (.inl ⟨hnone, rfl, ?_⟩)
      rw [onRequest, htype]
      simp only [if_neg hid, if_neg hnote, if_neg hcode, hcall]
    · refine (hreply m (EapPacket.response packet.identifier requested typeData) ?_).imp_right
        fun h => .inr (.inr h)
      rw [onRequest, htype]
      simp only [if_neg hid, if_neg hnote, if_neg hcode, hcall]

theorem HasNothing.onRequest_eq (h : HasNothing method p packet) : p.onRequest method packet =
    ({ p with method := (method.onRequest p.method packet.typeData).1 }, some (.ok .wait)) := by
  obtain ⟨requested, htype, hid, hnote, hcode, hcall⟩ := h
  rw [onRequest, htype]
  refine (if_neg hid).trans ((if_neg hnote).trans ((if_neg (not_not.mpr hcode)).trans ?_))
  generalize method.onRequest p.method packet.typeData = r at hcall ⊢
  obtain ⟨m, _⟩ := r
  cases hcall
  rfl

/-- A failure is taken down. -/
def settle : Dot1xProvider M × Option (Except Error Step) → Dot1xProvider M × Outcome
  | (p, none) => (p, none)
  | (p, some (.ok step)) => (p, some (.ok step))
  | (p, some (.error e)) => ({ p with state := .failed }, some (.error e.toCrypto))

theorem settle_error (p : Dot1xProvider M) (e : Error) :
    (settle (p, some (.error e))).1.state ≠ .running ∧
      (settle (p, some (.error e))).2 ≠ some (.ok .wait) := by
  simp [settle]

theorem onFrame_eq (p : Dot1xProvider M) (frame : Bytes) :
    p.onFrame method frame = settle (p.accept method frame) := rfl

theorem length_of_parse {b : Bytes} (h : EapPacket.parse b = .ok packet) : ¬ b.length < eapHdrLen := by
  intro hlt
  rcases b with _ | ⟨_, _ | ⟨_, _ | ⟨_, _ | ⟨_, rest⟩⟩⟩⟩
  · cases h
  · cases h
  · cases h
  · cases h
  · simp only [List.length_cons, eapHdrLen] at hlt
    omega

variable (method) in
theorem call_request (hrun : p.state = .running) {i : Input} (hi : i.request = some packet) :
    packet.code = .request ∧
      ∃ v, p.call method i = settle (onEap method { p with protocolVersion := v } packet) := by
  cases i with
  | start | timeout => cases hi
  | frame frame =>
    obtain ⟨eapol, hparse, heap, hpacket, hcode⟩ := requestOf_eq_some hi
    refine ⟨hcode, eapol.version, ?_⟩
    rw [call, onFrame_eq, accept, hparse]
    simp only [if_neg (not_not.mpr heap), if_neg (not_not.mpr hrun),
      if_neg (length_of_parse hpacket), hpacket]

variable (method) in
/-- **A request to a running provider**: the response again, a response, silence, an error that ends
the conversation, or a panic. -/
theorem call_request_cases (hrun : p.state = .running) {i : Input} (hi : i.request = some packet) :
    (∃ f v, p.duplicate packet = some f ∧ p.call method i =
        ({ p with protocolVersion := v, idleRounds := 0 }, some (.ok (.send f)))) ∨
      (p.duplicate packet = none ∧ ∃ m v,
        (∃ f, p.call method i =
          ({ p with method := m, protocolVersion := v, lastResponse := some f
                    answered := some packet.identifier, idleRounds := 0 }, some (.ok (.send f)))) ∨
        (HasNothing method p packet ∧ m = (method.onRequest p.method packet.typeData).1 ∧
          p.call method i = ({ p with method := m, protocolVersion := v }, some (.ok .wait))) ∨
        (∃ err, p.call method i = ({ p with method := m, protocolVersion := v, state := .failed },
          some (.error err))) ∨
        p.call method i = ({ p with method := m, protocolVersion := v }, none)) := by
  obtain ⟨hcode, v, hcall⟩ := call_request method hrun hi
  have hdup : duplicate { p with protocolVersion := v } packet = p.duplicate packet := rfl
  rw [hcall, onEap, hcode]
  simp only [hdup]
  cases hd : p.duplicate packet with
  | some f => exact .inl ⟨f, v, rfl, rfl⟩
  | none =>
    refine .inr ⟨rfl, ?_⟩
    obtain ⟨m, ⟨f, h⟩ | ⟨hnone, hm, h⟩ | ⟨err, h⟩ | h⟩ :=
      onRequest_cases method { p with protocolVersion := v } packet
    · exact ⟨m, v, .inl ⟨f, by simp only [h]; rfl⟩⟩
    · exact ⟨m, v, .inr (.inl ⟨hnone, hm, by simp only [h]; rfl⟩)⟩
    · exact ⟨m, v, .inr (.inr (.inl ⟨err.toCrypto, by simp only [h]; rfl⟩))⟩
    · exact ⟨m, v, .inr (.inr (.inr (by simp only [h]; rfl)))⟩

theorem call_over (hover : p.state ≠ .running) {i : Input} (hi : i.request = some packet) :
    p.call method i = ({ p with state := .failed }, some (.error .protocol)) := by
  cases i with
  | start | timeout => cases hi
  | frame frame =>
    obtain ⟨eapol, hparse, heap, -, -⟩ := requestOf_eq_some hi
    exact over_refuses hover ⟨eapol, hparse, heap⟩

/-- Nothing of what a repetition depends on changes. -/
structure Same (p p' : Dot1xProvider M) : Prop where
  state : p'.state = p.state
  answered : p'.answered = p.answered
  lastResponse : p'.lastResponse = p.lastResponse

variable (method) in
/-- A call that brings no request stores no response, and leaves the provider as it was or no longer
running. -/
theorem call_other (p : Dot1xProvider M) {i : Input} (hi : p.state = .running → i.request = none) :
    Same p (p.call method i).1 ∨
      ((p.call method i).1.state ≠ .running ∧ (p.call method i).2 ≠ some (.ok .wait)) := by
  have hsame : Same p p := ⟨rfl, rfl, rfl⟩
  cases i with
  | start => exact .inl hsame
  | timeout =>
    rw [call, onTimeout]
    by_cases hrun : p.state ≠ .running
    · rw [if_pos hrun]
      exact .inl hsame
    rw [if_neg hrun]
    by_cases hlimit : retryLimit < p.idleRounds + 1
    · exact .inr (by simp [hlimit])
    · exact .inl (by simp only [if_neg hlimit]; exact ⟨rfl, rfl, rfl⟩)
  | frame frame =>
    rw [call, onFrame_eq, accept]
    cases hparse : Eapol.parse frame with
    | error e => exact .inr (settle_error _ _)
    | ok eapol =>
      simp only
      by_cases heap : eapol.packetType ≠ .eap
      · rw [if_pos heap]
        exact .inl hsame
      rw [if_neg heap]
      by_cases hrun : p.state ≠ .running
      · rw [if_pos hrun]
        exact .inr (settle_error _ _)
      rw [if_neg hrun]
      by_cases hlen : eapol.body.length < eapHdrLen
      · rw [if_pos hlen]
        exact .inl ⟨rfl, rfl, rfl⟩
      rw [if_neg hlen]
      cases hpacket : EapPacket.parse eapol.body with
      | error e => exact .inr (settle_error _ _)
      | ok packet =>
        have hcode : packet.code ≠ .request := by
          intro hcode
          have hnone := hi (not_not.mp hrun)
          rw [Input.request, requestOf, hparse] at hnone
          simp [heap, hpacket, hcode] at hnone
        simp only
        rw [onEap]
        cases hc : packet.code with
        | request => exact absurd hc hcode
        | response => exact .inl ⟨rfl, rfl, rfl⟩
        | failure => exact .inr (settle_error _ _)
        | success =>
          simp only
          cases method.msk p.method with
          | none => exact .inr (settle_error _ _)
          | some msk => exact .inr (by simp [settle])

end Calls

/-! ## The invariant -/

section Invariant

variable {method : EapMethod M} {p p' : Dot1xProvider M} {past : List (Event M)} {i : Input}

/-- What the outcome of the latest request says about the provider. -/
def Standing (identifier : UInt8) (p : Dot1xProvider M) : Outcome → Prop
  | none => True
  | some (.error _) => p.state ≠ .running
  | some (.ok (.send frame)) =>
    p.state = .running ∧ p.answered = some identifier ∧ p.lastResponse = some frame
  | some (.ok .wait) => p.state = .running ∧ p.answered ≠ some identifier
  | some (.ok (.done _)) => False

theorem Standing.same {identifier : UInt8} {o : Outcome} (h : Standing identifier p o)
    (hsame : Same p p') : Standing identifier p' o := by
  obtain ⟨hstate, hanswered, hlast⟩ := hsame
  rcases o with _ | err | _ | _ | _
  · trivial
  · exact hstate.trans_ne h
  · exact ⟨hstate.trans h.1, hanswered.trans h.2.1, hlast.trans h.2.2⟩
  · exact ⟨hstate.trans h.1, hanswered.trans_ne h.2⟩
  · exact h.elim

/-- There is a stored response to whatever was answered; and the latest request processed is the one
it answers, unless the method had nothing to say. -/
structure Remembers (method : EapMethod M) (past : List (Event M)) (p : Dot1xProvider M) : Prop where
  paired : p.state = .running → p.answered ≠ none → p.lastResponse ≠ none
  latest : ∀ before e₀ between packet, past = before ++ e₀ :: between →
    (∀ b ∈ between, Ignored b) → taken e₀ = some packet → Standing packet.identifier p e₀.output
  silent : ∀ e ∈ past, taken e ≠ none → (Silent method e ↔ e.output = some (.ok .wait))

theorem remembers_new (identity : String) (m : M) : Remembers method [] (new identity m) where
  paired _ h := absurd rfl h
  latest before e₀ between packet heq := by simp at heq
  silent e he := by cases he

theorem taken_entry {packet : EapPacket} :
    taken (entry (call method) p i) = some packet ↔ p.state = .running ∧ i.request = some packet := by
  rw [taken]
  by_cases hrun : p.state = .running
  · simp [hrun]
  · simp [hrun]

theorem answered_ne (hpaired : p.answered ≠ none → p.lastResponse ≠ none) {packet : EapPacket}
    (h : p.duplicate packet = none) : p.answered ≠ some packet.identifier := by
  intro hans
  rw [duplicate, if_pos hans] at h
  exact hpaired (by simp [hans]) h

variable (method) in
theorem standing_call (hpaired : p.answered ≠ none → p.lastResponse ≠ none)
    (hrun : p.state = .running) {packet : EapPacket} (hi : i.request = some packet) :
    Standing packet.identifier (p.call method i).1 (p.call method i).2 ∧
      ((p.call method i).1.state = .running → (p.call method i).1.answered ≠ none →
        (p.call method i).1.lastResponse ≠ none) ∧
      (Silent method (entry (call method) p i) ↔ (p.call method i).2 = some (.ok .wait)) := by
  have htaken : ∀ packet', taken (entry (call method) p i) = some packet' → packet' = packet := by
    intro packet' h
    exact Option.some.inj ((taken_entry.mp h).2.symm.trans hi)
  have hloud : (p.duplicate packet ≠ none ∨ ¬ HasNothing method p packet) →
      ¬ Silent method (entry (call method) p i) := by
    rintro h ⟨packet', ht, hd, hn⟩
    rw [htaken packet' ht] at hd hn
    exact h.elim (fun h => h hd) fun h => h hn
  have hquiet : HasNothing method p packet → p.duplicate packet = none →
      (p.call method i).2 = some (.ok .wait) := by
    intro hn hd
    obtain ⟨hcode, v, hcall⟩ := call_request method hrun hi
    have hn' : HasNothing method { p with protocolVersion := v } packet := hn
    rw [hcall, onEap, hcode]
    simp only [show duplicate { p with protocolVersion := v } packet = p.duplicate packet from rfl, hd,
      hn'.onRequest_eq]
    rfl
  have hspoken : p.duplicate packet = none → (p.call method i).2 ≠ some (.ok .wait) →
      (Silent method (entry (call method) p i) ↔ (p.call method i).2 = some (.ok .wait)) :=
    fun hd hne => iff_of_false (hloud (.inr fun hn => hne (hquiet hn hd))) hne
  obtain ⟨f, v, hd, h⟩ | ⟨hd, m, v, ⟨f, h⟩ | ⟨hn, -, h⟩ | ⟨err, h⟩ | h⟩ :=
    call_request_cases method hrun hi
  · have hans : p.answered = some packet.identifier ∧ p.lastResponse = some f := by
      rw [duplicate] at hd
      split_ifs at hd with hans
      exact ⟨hans, hd⟩
    rw [h]
    refine ⟨⟨hrun, hans⟩, fun _ => hpaired, ?_⟩
    exact iff_of_false (hloud (.inl (by simp [hd]))) (by simp)
  · refine ⟨?_, ?_, hspoken hd (by simp [h])⟩
    · rw [h]
      exact ⟨hrun, rfl, rfl⟩
    · simp [h]
  · rw [h]
    refine ⟨⟨hrun, answered_ne hpaired hd⟩, fun _ => hpaired, iff_of_true ?_ rfl⟩
    exact ⟨packet, taken_entry.mpr ⟨hrun, hi⟩, hd, hn⟩
  · refine ⟨?_, ?_, hspoken hd (by simp [h])⟩
    · simp [h, Standing]
    · simp [h]
  · refine ⟨?_, ?_, hspoken hd (by simp [h])⟩
    · rw [h]
      trivial
    · rw [h]
      exact fun _ => hpaired

/-- **The invariant is kept.** -/
theorem Remembers.step (h : Remembers method past p) (i : Input) :
    Remembers method (past ++ [entry (call method) p i]) (p.call method i).1 := by
  -- A request settles what is stored; any other call that is ignored leaves it alone.
  have hcases : (p.state = .running ∧ ∃ packet, i.request = some packet) ∨
      (taken (entry (call method) p i) = none ∧ (p.state = .running → i.request = none)) := by
    by_cases hrun : p.state = .running
    · cases hi : i.request with
      | some packet => exact .inl ⟨hrun, packet, rfl⟩
      | none => exact .inr ⟨by simp [taken, hi], fun _ => rfl⟩
    · exact .inr ⟨by simp [taken, hrun], fun h => absurd h hrun⟩
  refine ⟨?_, ?_, ?_⟩
  · rcases hcases with ⟨hrun, packet, hi⟩ | ⟨-, hi⟩
    · exact (standing_call method (h.paired hrun) hrun hi).2.1
    · intro hrun'
      rcases call_other method p hi with hsame | ⟨hover, -⟩
      · rw [hsame.answered, hsame.lastResponse]
        exact h.paired (hsame.state ▸ hrun')
      · exact absurd hrun' hover
  · intro before e₀ between packet heq hbetween htaken
    rcases List.eq_nil_or_concat between with rfl | ⟨between', last, rfl⟩
    · obtain ⟨rfl, hcons⟩ := List.append_inj' heq rfl
      cases hcons
      obtain ⟨hrun, hi⟩ := taken_entry.mp htaken
      exact (standing_call method (h.paired hrun) hrun hi).1
    · have hsplit : past ++ [entry (call method) p i] = (before ++ e₀ :: between') ++ [last] := by
        simp [heq]
      obtain ⟨hpast, hlast⟩ := List.append_inj' hsplit rfl
      cases hlast
      have hignored : Ignored (entry (call method) p i) := hbetween _ (by simp)
      have hstanding := h.latest before e₀ between' packet hpast
        (fun b hb => hbetween b (by simp [hb])) htaken
      rcases hcases with ⟨hrun, packet', hi⟩ | ⟨-, hi⟩
      · cases (taken_entry.mpr ⟨hrun, hi⟩).symm.trans hignored.2
      · rcases call_other method p hi with hsame | ⟨-, hne⟩
        · exact hstanding.same hsame
        · exact absurd hignored.1 hne
  · intro e he htaken
    rcases List.mem_append.mp he with he | he
    · exact h.silent e he htaken
    · rw [List.mem_singleton.mp he] at htaken ⊢
      rcases hcases with ⟨hrun, packet, hi⟩ | ⟨hnone, -⟩
      · exact (standing_call method (h.paired hrun) hrun hi).2.2
      · exact absurd hnone htaken

end Invariant

/-! ## The law -/

/-- **One repetition**: the law holds of it exactly if the method had something to say. -/
theorem Remembers.repeats_iff {method : EapMethod M} {p : Dot1xProvider (M × ℕ)}
    {past : List (Event (M × ℕ))} (h : Remembers method.counted past p) (i : Input) :
    Repeats past (entry (call method.counted) p i) ↔
      Spoken method.counted past (entry (call method.counted) p i) := by
  constructor
  · rintro hrep e₀ ⟨before, between, packet, packet', hpast, hbetween, htaken, hi, hid⟩ hsilent
    have hmem : e₀ ∈ past := by simp [hpast]
    have hwait := (h.silent e₀ hmem (by simp [htaken])).mp hsilent
    obtain ⟨hcount, hout⟩ := hrep e₀ ⟨before, between, packet, packet', hpast, hbetween, htaken, hi, hid⟩
      (by simp [hwait])
    have hi' : i.request = some packet' := hi
    have hstanding := h.latest before e₀ between packet hpast hbetween htaken
    rw [hwait] at hstanding
    have hans : p.answered ≠ some packet'.identifier := hid ▸ hstanding.2
    have hagain := hout .wait hwait
    simp only [Machine.entry_output, Machine.entry_post, Machine.entry_pre] at hcount hagain
    obtain ⟨f, v, hd, hcall⟩ | ⟨hd, m, v, ⟨f, hcall⟩ | ⟨hn, rfl, hcall⟩ | ⟨err, hcall⟩ | hcall⟩ :=
      call_request_cases method.counted hstanding.1 hi'
    · rw [duplicate, if_neg hans] at hd
      cases hd
    · rw [hcall] at hagain
      cases hagain
    · rw [hcall] at hcount
      exact absurd hcount (Nat.succ_ne_self _)
    · rw [hcall] at hagain
      cases hagain
    · rw [hcall] at hagain
      cases hagain
  · rintro hspoken e₀ hrepetition hne
    obtain ⟨before, between, packet, packet', hpast, hbetween, htaken, hi, hid⟩ := id hrepetition
    have hmem : e₀ ∈ past := by simp [hpast]
    have hstanding := h.latest before e₀ between packet hpast hbetween htaken
    have hi' : i.request = some packet' := hi
    have hloud := mt (h.silent e₀ hmem (by simp [htaken])).mpr (hspoken e₀ hrepetition)
    simp only [Machine.entry_output, Machine.entry_post, Machine.entry_pre]
    rcases hout : e₀.output with _ | err | f | _ | pmk
    · exact absurd hout hne
    · rw [hout] at hstanding
      rw [call_over hstanding hi']
      exact ⟨rfl, fun step hstep => by cases hstep⟩
    · rw [hout] at hstanding
      obtain ⟨hrun, hans, hlast⟩ := hstanding
      have hdup : p.duplicate packet' = some f := by rw [duplicate, hid, if_pos hans, hlast]
      obtain ⟨f', v, hd, hcall⟩ | ⟨hd, -⟩ :=
        call_request_cases method.counted hrun hi'
      · cases hdup.symm.trans hd
        rw [hcall]
        refine ⟨rfl, ?_⟩
        rintro step ⟨⟩
        rfl
      · cases hdup.symm.trans hd
    · exact absurd hout hloud
    · rw [hout] at hstanding
      exact hstanding.elim

/-- **Which runs keep the law**: those in which no request is repeated to which the method had nothing
to say. -/
theorem repeats_run (method : EapMethod M) (identity : String) (m : M) (inputs : List Input) :
    Along Repeats (log (call method.counted) (new identity (m, 0)) inputs) ↔
      Along (Spoken method.counted) (log (call method.counted) (new identity (m, 0)) inputs) := by
  have hiff : Along (fun past e => Repeats past e ↔ Spoken method.counted past e)
      (log (call method.counted) (new identity (m, 0)) inputs) :=
    Machine.along_of_inv (G := fun _ _ => True) (remembers_new identity (m, 0))
      (fun past p i h _ => h.step i) (fun past p i h _ => h.repeats_iff i) inputs
      (fun _ _ _ _ => trivial)
  exact ⟨fun h past e rest hl => (hiff past e rest hl).mp (h past e rest hl),
    fun h past e rest hl => (hiff past e rest hl).mpr (h past e rest hl)⟩

/-- A method that consumes every request and never has anything to say. -/
def mute : EapMethod Unit where
  typeCode _ := 25
  onRequest m _ := (m, .ok none)
  msk _ := none

/-- A request of that method, as it comes again. -/
def muteRequest : Bytes := [2, 0, 0, 6, 1, 6, 0, 6, 25, 0xaa]

/-- The first time it comes. -/
def muteFirst : Event (Unit × ℕ) :=
  entry (call mute.counted) (new "anonymous" ((), 0)) (.frame muteRequest)

theorem repeats_fails : ¬ Along Repeats (log (call mute.counted) (new "anonymous" ((), 0))
    [.frame muteRequest, .frame muteRequest]) := by
  intro h
  have hreq : requestOf muteRequest = some ⟨.request, 6, [25, 0xaa]⟩ := by decide +kernel
  have htaken : taken muteFirst = some ⟨.request, 6, [25, 0xaa]⟩ := by decide +kernel
  have hrepeats : Repeats [muteFirst] (entry (call mute.counted) muteFirst.post (.frame muteRequest)) :=
    h [muteFirst] _ [] rfl
  have hrepetition : Repetition [muteFirst] muteFirst
      (entry (call mute.counted) muteFirst.post (.frame muteRequest)) :=
    ⟨[], [], _, _, rfl, fun _ hmem => absurd hmem List.not_mem_nil, htaken, hreq, rfl⟩
  have hout : muteFirst.output = some (.ok .wait) := by decide +kernel
  have hcount := (hrepeats muteFirst hrepetition (by simp [hout])).1
  exact absurd hcount (by decide +kernel)

end Dot1xProvider

end Caw
