import Caw.Eapol.Authenticator

/-!
# Replay counters and the authentication of a handshake

What an observer can say of a run of the handshake from the frames that went in and the actions
that came out.

* `sends`, `installs`: the frames and the keys in the output of a poll;
* `answered`, `answeredMsg1`: the frame a step answered, by its counter and as a message 1;
* `Tracks`: the invariant that ties the handshake's fields to the history;
* **`replies_and_completions`**: a reply carries the counter of the frame it answers, answered
  counters increase strictly, and keys are handed over only on an authentic message 3;
* **`unauthenticated_frame`**: a frame whose MIC does not verify is ignored, restarts the handshake
  as a message 1, or fails it.
-/

set_option autoImplicit false

namespace Caw

namespace FourWay

open Eapol (Error)
open Machine (Entry entry log exec Along)

/-- A step of a handshake's run. -/
abbrev Event : Type := Entry FourWay Input (Except Error (List Action))

/-! ## Observations -/

/-- The frames an action list transmits. -/
def Action.frame? : Action → Option Bytes
  | .send frame => some frame
  | _ => none

/-- The keys an action hands over for installation. -/
def Action.keys? : Action → Option Keys
  | .complete keys => some keys
  | _ => none

/-- The frames in the output of a poll. -/
def sends : Except Error (List Action) → List Bytes
  | .ok actions => actions.filterMap Action.frame?
  | .error _ => []

/-- The keys in the output of a poll. -/
def installs : Except Error (List Action) → List Keys
  | .ok actions => actions.filterMap Action.keys?
  | .error _ => []

/-- The EAPOL-Key descriptor a frame carries. -/
def keyFrame (bytes : Bytes) : Except Error KeyFrame := do
  let eapol ← Eapol.parse bytes
  KeyFrame.parse eapol.body

/-- The frame a step answered: one came in, and a reply went out. -/
def answeredFrame (e : Event) : Option KeyFrame :=
  match e.input, sends e.output with
  | .frame bytes, _ :: _ => (keyFrame bytes).toOption
  | _, _ => none

/-- The counter of the frame a step answered. -/
def answered (e : Event) : Option UInt64 := (answeredFrame e).map KeyFrame.replayCounter

/-- The message 1 a step answered. -/
def answeredMsg1 (e : Event) : Option KeyFrame :=
  (answeredFrame e).filter fun frame => frame.keyInfo.pairwise && !frame.keyInfo.mic

/-- The latest message 1 answered so far. -/
def latestMsg1 (past : List Event) : Option KeyFrame := (past.filterMap answeredMsg1).getLast?

variable {P : Primitives} {h h' : FourWay} {bytes : Bytes} {eapol : Eapol} {frame : KeyFrame}

theorem Incoming.keyFrame_eq (hin : Incoming h bytes eapol frame) : keyFrame bytes = .ok frame := by
  rw [keyFrame, hin.header, Except.ok_bind, hin.body]

/-- A signed frame that fits its length field is read back, counter included. -/
theorem keyFrame_encodeSigned (f : KeyFrame) (v : UInt8) (kck : Octets 16)
    (version : KeyDescriptorVersion) (hfit : bodyMin + f.keyData.length < 65536) :
    keyFrame (f.encodeSigned P v kck version) = .ok (f.signed P v kck version) := by
  rw [keyFrame, KeyFrame.encodeSigned_eq, KeyFrame.parse_encode (f.signed P v kck version) v hfit,
    Except.ok_bind]
  exact KeyFrame.parse_body _ (lt_of_le_of_lt (Nat.le_add_left _ _) hfit)

/-! ## The invariant of a run -/

variable (P) in
/-- The handshake's fields tell the history: the counter bounds every answered one, the PTK is the
one of the latest answered message 1. -/
structure Tracks (pmk : Pmk) (config : Config) (snonce : Octets 32) (past : List Event)
    (h : FourWay) : Prop where
  pmk : h.pmk = pmk
  config : h.config = config
  snonce : h.snonce = snonce
  bounded : ∀ c ∈ past.filterMap answered, ∃ seen, h.rxCounter = some seen ∧ c ≤ seen
  increasing : (past.filterMap answered).Pairwise (· < ·)
  keyed : ∀ ptk, h.ptk = some ptk → ∃ msg1, latestMsg1 past = some msg1 ∧
    msg1.keyNonce = h.anonce ∧ msg1.keyInfo.version h.config.akm = .ok h.descriptorVersion ∧
    h.ptkOf P msg1.keyNonce = .ok ptk

section Tracking

variable {pmk : Pmk} {config : Config} {snonce : Octets 32} {past : List Event} {e : Event}

theorem Tracks.unanswered (ht : Tracks P pmk config snonce past h) (he : answeredFrame e = none)
    (hpmk : h'.pmk = h.pmk) (hconfig : h'.config = h.config) (hsnonce : h'.snonce = h.snonce)
    (hanonce : h'.anonce = h.anonce) (hptk : h'.ptk = h.ptk)
    (hversion : h'.descriptorVersion = h.descriptorVersion) (hcounter : h'.rxCounter = h.rxCounter) :
    Tracks P pmk config snonce (past ++ [e]) h' := by
  have ha : (past ++ [e]).filterMap answered = past.filterMap answered := by
    simp [answered, he]
  have hm : latestMsg1 (past ++ [e]) = latestMsg1 past := by
    simp [latestMsg1, answeredMsg1, he]
  refine ⟨hpmk.trans ht.pmk, hconfig.trans ht.config, hsnonce.trans ht.snonce, ?_, ?_, ?_⟩
  · rw [ha, hcounter]
    exact ht.bounded
  · rw [ha]
    exact ht.increasing
  · rw [hm, hptk, hanonce, hversion]
    have hof (n : Octets 32) : h'.ptkOf P n = h.ptkOf P n := by
      simp only [ptkOf, hpmk, hconfig, hsnonce]
    simp only [hof, hconfig]
    exact ht.keyed

theorem Tracks.fresh (ht : Tracks P pmk config snonce past h) (hin : Incoming h bytes eapol frame) :
    ∀ c ∈ past.filterMap answered, c < frame.replayCounter := by
  intro c hc
  obtain ⟨seen, hseen, hle⟩ := ht.bounded c hc
  exact UInt64.lt_of_le_of_lt hle (replayed_eq_false.mp hin.fresh seen hseen)

theorem Tracks.answer (ht : Tracks P pmk config snonce past h) (hin : Incoming h bytes eapol frame)
    (he : answeredFrame e = some frame) :
    (∀ c ∈ (past ++ [e]).filterMap answered, ∃ seen, some frame.replayCounter = some seen ∧
      c ≤ seen) ∧
      ((past ++ [e]).filterMap answered).Pairwise (· < ·) := by
  have ha : (past ++ [e]).filterMap answered = past.filterMap answered ++ [frame.replayCounter] := by
    simp [answered, he]
  have hlt := ht.fresh hin
  rw [ha]
  constructor
  · intro c hc
    refine ⟨_, rfl, ?_⟩
    rcases List.mem_append.mp hc with hc | hc
    · exact UInt64.le_of_lt (hlt c hc)
    · rw [List.mem_singleton.mp hc]
      exact UInt64.le_refl _
  · refine List.pairwise_append.mpr ⟨ht.increasing, List.pairwise_singleton _ _, ?_⟩
    intro a hmem b hb
    rw [List.mem_singleton.mp hb]
    exact hlt a hmem

/-- Answering a frame that carries a MIC leaves the latest message 1 in place. -/
theorem latestMsg1_authentic (he : answeredFrame e = some frame) (hmic : frame.keyInfo.mic = true) :
    latestMsg1 (past ++ [e]) = latestMsg1 past := by
  simp [latestMsg1, answeredMsg1, he, hmic]

/-- **One step keeps the invariant.** -/
theorem Tracks.step {i : Input} {o : Except Error (List Action)}
    (ht : Tracks P pmk config snonce past h) (hs : Step P h i h' o) :
    Tracks P pmk config snonce (past ++ [⟨h, i, o, h'⟩]) h' := by
  cases hs with
  | ignore bytes => exact ht.unanswered rfl rfl rfl rfl rfl rfl rfl rfl
  | quiet _ => exact ht.unanswered rfl rfl rfl rfl rfl rfl rfl rfl
  | retransmit f _ _ => exact ht.unanswered rfl rfl rfl rfl rfl rfl rfl rfl
  | fail _ e => exact ht.unanswered (by cases i <;> rfl) rfl rfl rfl rfl rfl rfl rfl
  | message1 bytes eapol frame version ptk hm =>
    have he : answeredFrame ⟨h, .frame bytes,
        .ok [.send (h.signedMsg2 P eapol frame version ptk), .armTimer retryIntervalMs],
        h.afterMsg1 eapol frame version ptk (h.signedMsg2 P eapol frame version ptk)⟩ =
          some frame := by
      simp [answeredFrame, sends, Action.frame?, hm.toIncoming.keyFrame_eq, Except.toOption]
    obtain ⟨hbounded, hincreasing⟩ := ht.answer hm.toIncoming he
    refine ⟨ht.pmk, ht.config, ht.snonce, hbounded, hincreasing, ?_⟩
    rintro p ⟨⟩
    refine ⟨frame, ?_, rfl, hm.versionOk, hm.derived⟩
    simp [latestMsg1, answeredMsg1, he, hm.pairwise, hm.noMic]
  | message3 bytes eapol frame ptk keyData gtk hm =>
    have he : answeredFrame ⟨h, .frame bytes, .ok ([.send (h.signedMsg4 P frame ptk),
        .disarmTimer] ++ completion (h.state = .awaitingMsg3) { ptk, gtk }),
        h.afterMsg3 frame⟩ = some frame := by
      simp [answeredFrame, sends, Action.frame?, hm.toIncoming.keyFrame_eq, Except.toOption]
    obtain ⟨hbounded, hincreasing⟩ := ht.answer hm.toIncoming he
    refine ⟨ht.pmk, ht.config, ht.snonce, hbounded, hincreasing, ?_⟩
    rw [latestMsg1_authentic he hm.mic]
    exact ht.keyed
  | groupMessage1 bytes eapol frame ptk keyData gtk hm =>
    have he : answeredFrame ⟨h, .frame bytes, .ok [.send (h.signedGroupMsg2 P frame ptk),
        .newGtk gtk], { h with rxCounter := some frame.replayCounter }⟩ = some frame := by
      simp [answeredFrame, sends, Action.frame?, hm.toIncoming.keyFrame_eq, Except.toOption]
    obtain ⟨hbounded, hincreasing⟩ := ht.answer hm.toIncoming he
    refine ⟨ht.pmk, ht.config, ht.snonce, hbounded, hincreasing, ?_⟩
    rw [latestMsg1_authentic he hm.mic]
    exact ht.keyed

theorem tracks_init : Tracks P pmk config snonce [] (withSnonce pmk config snonce) := by
  refine ⟨rfl, rfl, rfl, by simp, by simp, ?_⟩
  rintro ptk ⟨⟩

end Tracking

/-! ## Replies and completions -/

/-- The reply to a frame carries its counter. -/
def Echoes (e : Event) : Prop :=
  ∀ bytes, e.input = .frame bytes → ∀ reply ∈ sends e.output, ∃ frame answer,
    keyFrame bytes = .ok frame ∧ keyFrame reply = .ok answer ∧
      answer.replayCounter = frame.replayCounter

/-- The step answers an authentic message 3, and `keys` are what it authenticates. -/
structure Completes (P : Primitives) (pmk : Pmk) (config : Config) (snonce : Octets 32)
    (past : List Event) (e : Event) (keys : Keys) (bytes : Bytes) (eapol : Eapol)
    (msg3 msg1 : KeyFrame) (version : KeyDescriptorVersion) (keyData : Bytes) : Prop where
  input : e.input = .frame bytes
  replied : sends e.output ≠ []
  header : Eapol.parse bytes = .ok eapol
  body : KeyFrame.parse eapol.body = .ok msg3
  fromAuthenticator : msg3.keyInfo.ack = true ∧ msg3.keyInfo.request = false
  isMessage3 : msg3.keyInfo.pairwise = true ∧ msg3.keyInfo.mic = true
  counter : ∀ c ∈ past.filterMap answered, c < msg3.replayCounter
  latest : latestMsg1 past = some msg1
  versionOk : msg1.keyInfo.version config.akm = .ok version
  derived : derivePtk P pmk config.akm config.bssid config.ownMac msg1.keyNonce snonce = .ok keys.ptk
  verified : verifyFrameMic P eapol.raw keys.ptk.kck version msg3.keyMic = .ok ()
  sameNonce : msg3.keyNonce = msg1.keyNonce
  encrypted : msg3.keyInfo.encrypted = true
  unwrapped : unwrapKeyData P keys.ptk.kek msg3.keyData = .ok keyData
  sameRsn : rsnElement keyData = some config.beaconRsnIe
  carries : gtkKde keyData = .ok keys.gtk

theorem installs_message3 (install : Bool) (sent : Bytes) (keys : Keys) :
    installs (.ok ([.send sent, .disarmTimer] ++ completion install keys)) =
      if install then [keys] else [] := by
  cases install <;> rfl

section Laws

variable {pmk : Pmk} {config : Config} {snonce : Octets 32} {past : List Event} {i : Input}
  {o : Except Error (List Action)}

theorem step_echoes (hs : Step P h i h' o) : Echoes ⟨h, i, o, h'⟩ := by
  rintro b hb reply hreply
  cases hs with
  | ignore _ => simp [sends] at hreply
  | quiet _ => simp [sends] at hreply
  | retransmit _ _ _ => cases hb
  | fail _ _ => simp [sends] at hreply
  | message1 bytes eapol frame version ptk hm =>
    cases hb
    simp only [sends, List.filterMap_cons, Action.frame?, List.filterMap_nil,
      List.mem_singleton] at hreply
    subst hreply
    exact ⟨frame, _, hm.toIncoming.keyFrame_eq, keyFrame_encodeSigned _ _ _ _ h.config.assocFits, rfl⟩
  | message3 bytes eapol frame ptk keyData gtk hm =>
    cases hb
    have hone : sends (.ok ([.send (h.signedMsg4 P frame ptk), .disarmTimer] ++
        completion (h.state = .awaitingMsg3) { ptk, gtk })) = [h.signedMsg4 P frame ptk] := by
      unfold completion
      split <;> rfl
    rw [hone, List.mem_singleton] at hreply
    subst hreply
    exact ⟨frame, _, hm.toIncoming.keyFrame_eq,
      keyFrame_encodeSigned _ _ _ _ (by simp [msg4, reply, bodyMin]), rfl⟩
  | groupMessage1 bytes eapol frame ptk keyData gtk hm =>
    cases hb
    simp only [sends, List.filterMap_cons, Action.frame?, List.filterMap_nil,
      List.mem_singleton] at hreply
    subst hreply
    exact ⟨frame, _, hm.toIncoming.keyFrame_eq,
      keyFrame_encodeSigned _ _ _ _ (by simp [groupMsg2, reply, bodyMin]), rfl⟩

theorem step_completes (ht : Tracks P pmk config snonce past h) (hs : Step P h i h' o) :
    ∀ keys ∈ installs o, ∃ bytes eapol msg3 msg1 version keyData,
      Completes P pmk config snonce past ⟨h, i, o, h'⟩ keys bytes eapol msg3 msg1 version keyData := by
  intro keys hkeys
  cases hs with
  | ignore _ => simp [installs] at hkeys
  | quiet _ => simp [installs] at hkeys
  | retransmit _ _ _ => simp [installs, Action.keys?] at hkeys
  | fail _ _ => simp [installs] at hkeys
  | message1 _ _ _ _ _ _ => simp [installs, Action.keys?] at hkeys
  | groupMessage1 _ _ _ _ _ _ _ => simp [installs, Action.keys?] at hkeys
  | message3 bytes eapol frame ptk keyData gtk hm =>
    rw [installs_message3] at hkeys
    obtain rfl : keys = { ptk, gtk } := by
      split_ifs at hkeys
      · exact List.mem_singleton.mp hkeys
      · simp at hkeys
    obtain ⟨msg1, hlatest, hnonce, hversion, hderived⟩ := ht.keyed ptk hm.current
    rw [ptkOf, ht.pmk, ht.config, ht.snonce] at hderived
    rw [ht.config] at hversion
    refine ⟨bytes, eapol, frame, msg1, h.descriptorVersion, keyData, rfl, ?_, hm.header, hm.body,
      ⟨hm.ack, hm.noRequest⟩, ⟨hm.pairwise, hm.mic⟩, ht.fresh hm.toIncoming, hlatest, hversion,
      hderived, hm.verified, hm.sameNonce.trans hnonce.symm, hm.encrypted, hm.unwrapped, ?_,
      hm.carries⟩
    · simp [sends, Action.frame?]
    · rw [← ht.config]
      exact hm.sameRsn

end Laws

/-- **Replies echo, answered counters increase, and completions are authentic**, along every run of
a handshake. -/
theorem replies_and_completions (P : Primitives) (pmk : Pmk) (config : Config) (snonce : Octets 32)
    (inputs : List Input) :
    let run := log (poll P) (withSnonce pmk config snonce) inputs
    Along (fun _ e => Echoes e) run ∧ (run.filterMap answered).Pairwise (· < ·) ∧
      Along (fun past e => ∀ keys ∈ installs e.output, ∃ bytes eapol msg3 msg1 version keyData,
        Completes P pmk config snonce past e keys bytes eapol msg3 msg1 version keyData) run := by
  intro run
  have hinit : Tracks P pmk config snonce [] (withSnonce pmk config snonce) := tracks_init
  have hstep (past : List Event) (h : FourWay) (i : Input) (ht : Tracks P pmk config snonce past h)
      (_ : True) : Tracks P pmk config snonce (past ++ [entry (poll P) h i]) (h.poll P i).1 :=
    ht.step (poll_step h i)
  have htriv : Along (fun _ _ => True) run := fun _ _ _ _ => trivial
  refine ⟨?_, (Machine.run_induction hinit hstep inputs htriv).increasing, ?_⟩
  · exact Machine.along_of_inv hinit hstep (fun _ h i _ _ => step_echoes (poll_step h i)) inputs htriv
  · exact Machine.along_of_inv hinit hstep
      (fun _ h i ht _ => step_completes ht (poll_step h i)) inputs htriv

/-! ## Frames that do not authenticate -/

/-- The frame carries a MIC, and it verifies under the current KCK. -/
def Authenticates (P : Primitives) (h : FourWay) (bytes : Bytes) : Prop :=
  ∃ eapol frame ptk, Eapol.parse bytes = .ok eapol ∧ KeyFrame.parse eapol.body = .ok frame ∧
    h.ptk = some ptk ∧ frame.keyInfo.mic = true ∧
    verifyFrameMic P eapol.raw ptk.kck h.descriptorVersion frame.keyMic = .ok ()

theorem Authentic.authenticates {ptk : Ptk} {keyData : Bytes} {gtk : Gtk}
    (ha : Authentic P h bytes eapol frame ptk keyData gtk) : Authenticates P h bytes :=
  ⟨eapol, frame, ptk, ha.header, ha.body, ha.current, ha.mic, ha.verified⟩

/-- **A frame that does not authenticate** to a handshake that holds a PTK is ignored, or it fails
the handshake with key and counter kept, or it is a fresh message 1, and restarts it: message 2
answers it, and no key is handed over. -/
theorem unauthenticated_frame (P : Primitives) (h : FourWay) (ptk : Ptk) (bytes : Bytes)
    (hptk : h.ptk = some ptk) (hst : h.state = .awaitingMsg3 ∨ h.state = .established)
    (hauth : ¬ Authenticates P h bytes) :
    h.poll P (.frame bytes) = (h, .ok []) ∨
      (∃ e, h.poll P (.frame bytes) = ({ h with state := .failed }, .error e)) ∨
      ∃ eapol msg1 version ptk', Message1 P h bytes eapol msg1 version ptk' ∧
        h.poll P (.frame bytes) =
          (h.afterMsg1 eapol msg1 version ptk' (h.signedMsg2 P eapol msg1 version ptk'),
            .ok [.send (h.signedMsg2 P eapol msg1 version ptk'), .armTimer retryIntervalMs]) := by
  have hs := poll_step (P := P) h (.frame bytes)
  generalize h.poll P (.frame bytes) = r at hs ⊢
  obtain ⟨h', o⟩ := r
  cases hs with
  | ignore _ => exact .inl rfl
  | fail _ e => exact .inr (.inl ⟨e, rfl⟩)
  | message1 _ eapol frame version ptk' hm =>
    exact .inr (.inr ⟨eapol, frame, version, ptk', hm, rfl⟩)
  | message3 _ _ _ _ _ _ hm => exact absurd hm.toAuthentic.authenticates hauth
  | groupMessage1 _ _ _ _ _ _ hm => exact absurd hm.toAuthentic.authenticates hauth

theorem not_authenticates_of_noMic (hread : keyFrame bytes = .ok frame)
    (hmic : frame.keyInfo.mic = false) : ¬ Authenticates P h bytes := by
  rintro ⟨eapol, f, ptk, hheader, hbody, -, hf, -⟩
  rw [keyFrame, hheader, Except.ok_bind, hbody] at hread
  cases hread
  rw [hmic] at hf
  cases hf

end FourWay

/-! ## An established sample handshake -/

namespace Exchange

open Machine (exec)

variable {P : Primitives} (x : Exchange P)

/-- The handshake after messages 1 and 3. -/
def joined : FourWay :=
  exec (FourWay.poll P) x.station [.frame (x.msg1 1), .frame (x.msg3 2)]

theorem joined_eq : x.joined = established (x.awaiting x.station 1) 2 := by
  obtain ⟨r1, h1⟩ := x.holds_station.poll_msg1 1 (fun h => nomatch h) (fun _ h => nomatch h)
  have hk := x.holds_station.keyed_awaiting 1
  obtain ⟨r2, h2⟩ := hk.poll_msg3 2 (.inl rfl) (by rintro _ ⟨⟩; exact (by decide : (1 : UInt64) < 2))
  rw [joined, Machine.exec_cons_of_eq h1, Machine.exec_cons_of_eq h2]
  rfl

theorem keyed_joined : x.Keyed x.joined := by
  rw [joined_eq]
  exact (x.holds_station.keyed_awaiting 1).established 2

theorem joined_state : x.joined.state = .established := by
  rw [joined_eq]; rfl

theorem joined_counter : x.joined.rxCounter = some 2 := by
  rw [joined_eq]; rfl

theorem keyFrame_msg1 (counter : UInt64) : FourWay.keyFrame (x.msg1 counter) =
    .ok (Authenticator.msg1Frame .hmacSha1 counter x.anonce) :=
  (x.holds_station.message1 counter (fun h => nomatch h) (fun _ h => nomatch h)).keyFrame_eq

end Exchange

namespace FourWay

/-- A message 1 that carries no MIC displaces an established handshake. -/
theorem message1_displaces_established :
    Sample.exchange.joined.state = .established ∧
      Sample.exchange.joined.ptk = some Sample.ptk ∧
      ¬ Authenticates .sample Sample.exchange.joined (Sample.exchange.msg1 3) ∧
      ¬ ((Sample.exchange.joined.poll .sample (.frame (Sample.exchange.msg1 3))).1.rxCounter =
            Sample.exchange.joined.rxCounter ∧
          (Sample.exchange.joined.poll .sample (.frame (Sample.exchange.msg1 3))).1.ptk =
            Sample.exchange.joined.ptk ∧
          (Sample.exchange.joined.poll .sample (.frame (Sample.exchange.msg1 3))).1.state =
            Sample.exchange.joined.state) := by
  have hk := Sample.exchange.keyed_joined
  refine ⟨Sample.exchange.joined_state, hk.ptk, not_authenticates_of_noMic
    (Sample.exchange.keyFrame_msg1 3) (Authenticator.msg1_flags .hmacSha1).2.2.2, ?_⟩
  rintro ⟨-, -, hst⟩
  obtain ⟨reply, hpoll⟩ := hk.toHolds.poll_msg1 3
    (by rw [Exchange.joined_state]; exact fun h => nomatch h)
    (by rw [Exchange.joined_counter]; rintro _ ⟨⟩; decide)
  rw [hpoll, Exchange.joined_state] at hst
  cases hst

/-- The law at the established sample handshake and a message 1: it is the third outcome. -/
theorem unauthenticated_frame_sample :
    ∃ eapol msg1 version ptk',
      Message1 .sample Sample.exchange.joined (Sample.exchange.msg1 3) eapol msg1 version ptk' ∧
      Sample.exchange.joined.poll .sample (.frame (Sample.exchange.msg1 3)) =
        (Sample.exchange.joined.afterMsg1 eapol msg1 version ptk'
            (Sample.exchange.joined.signedMsg2 .sample eapol msg1 version ptk'),
          .ok [.send (Sample.exchange.joined.signedMsg2 .sample eapol msg1 version ptk'),
            .armTimer retryIntervalMs]) := by
  obtain ⟨reply, hpoll⟩ := Sample.exchange.keyed_joined.toHolds.poll_msg1 3
    (by rw [Exchange.joined_state]; exact fun h => nomatch h)
    (by rw [Exchange.joined_counter]; rintro _ ⟨⟩; decide)
  rcases unauthenticated_frame .sample Sample.exchange.joined Sample.ptk (Sample.exchange.msg1 3)
    Sample.exchange.keyed_joined.ptk (.inr Sample.exchange.joined_state)
    (not_authenticates_of_noMic (Sample.exchange.keyFrame_msg1 3)
      (Authenticator.msg1_flags .hmacSha1).2.2.2) with hignored | ⟨e, hfailed⟩ | hrestarted
  · rw [hpoll] at hignored
    cases congrArg Prod.snd hignored
  · rw [hpoll] at hfailed
    cases congrArg Prod.snd hfailed
  · exact hrestarted

end FourWay

end Caw
