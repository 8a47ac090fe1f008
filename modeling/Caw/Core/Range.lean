import Caw.Core.Offered
import Caw.Core.Saved
import Caw.Core.Sessions
import Caw.Crypto.SaeTotal
import Caw.Dot11.Text

/-!
# What the core expects of its own values

Where the source expects something of a value it has made itself, the value is so: a poll of a sound
connection whose session is in range returns, and leaves the session in range.

* `assembleStaged`, `assembleStaged_eq`: the branches for a provider that runs at the wrong stage;
* `Session.InRange`, `Session.Fits`: the counters and the lengths of a session;
* `Answers`, `Encodable`: an exchange that answers an event, and an element that can be sent;
* **`poll_isSome`**: such a poll returns;
* **`inRange_move`**: and it leaves the session in range.
-/

set_option autoImplicit false

namespace Caw

open Caw.Core

variable {S : Platform}

/-! ## Providers -/

/-- The PSK method answers at once. -/
def PskProvider.start (P : Primitives) (passphrase : String) (ctx : AuthContext) :
    Except Crypto.Error Step :=
  .ok (.done (derivePmk P passphrase ctx.ssid))

/-- 802.1X speaks over EAPOL, which only exists once associated. -/
def dot1xStage : AuthStage := .postAssoc

/-- `assemble` with the checks the source makes of a provider it has built itself. -/
def assembleStaged (draws : Draws S) (akm : Akm) (credential : Credential) (caps : DeviceCaps)
    (ctx : AuthContext) : Except Failure (Auth S) :=
  match credential with
  | .none => .ok .open
  | .passphrase secret =>
    if akm.isSae then
      if caps.offloadsSae then .ok (.offloaded (.saePassword secret))
      else .ok (.preAssoc (.withSeed secret draws.saeSeed))
    else if akm.isPsk then
      match PskProvider.start S.prim secret ctx with
      | .error e => .error (.fromCrypto e)
      | .ok (.done pmk) => if caps.offloads4wayPsk then .ok (.offloaded (.pmk pmk)) else .ok (.ready pmk)
      | .ok _ => .error (.internal "a local provider asked to send or wait")
    else .error .unsupportedSecurity
  | .enterprise identity anonymousIdentity serverName method caCert =>
    if akm.isEnterprise then
      (enterpriseProvider draws identity anonymousIdentity serverName method caCert).bind fun provider =>
        match dot1xStage with
        | .postAssoc => .ok (.postAssoc provider)
        | .local | .preAssoc => .error (.internal ("provider for " ++ akm.text ++
            " runs at a stage this crate does not stage here"))
    else .error .unsupportedSecurity

/-- **The checks never fail**: `assemble` leaves them out. -/
theorem assembleStaged_eq (draws : Draws S) (akm : Akm) (credential : Credential) (caps : DeviceCaps)
    (ctx : AuthContext) :
    assembleStaged draws akm credential caps ctx = assemble draws akm credential caps ctx := by
  cases credential with
  | none => rfl
  | passphrase secret => rfl
  | enterprise identity anonymousIdentity serverName method caCert =>
    unfold assembleStaged assemble
    dsimp only
    split_ifs
    · cases enterpriseProvider draws identity anonymousIdentity serverName method caCert <;> rfl
    · rfl

/-- What is assembled to run before association has its password and its seed, and nothing else. -/
theorem assemble_withSeed {draws : Draws S} {akm : Akm} {credential : Credential} {caps : DeviceCaps}
    {ctx : AuthContext} {p : SaeProvider S.curve}
    (h : assemble draws akm credential caps ctx = .ok (.preAssoc p)) :
    ∃ secret, p = .withSeed secret draws.saeSeed := by
  unfold assemble at h
  split at h
  · cases h
  · rename_i secret
    split_ifs at h <;> cases h
    exact ⟨secret, rfl⟩
  · split_ifs at h
    obtain ⟨p', -, heq⟩ := Except.map_eq_ok.mp h
    cases heq

/-! ## The counters of a session -/

theorem FourWay.retries_poll {P : Primitives} {h : FourWay} (hretries : h.retries ≤ retryLimit)
    (input : FourWay.Input) : (h.poll P input).1.retries ≤ retryLimit := by
  have hstep := FourWay.poll_step (P := P) h input
  generalize h.poll P input = polled at hstep
  obtain ⟨h', x⟩ := polled
  cases hstep with
  | retransmit frame hsent hlt => exact hlt
  | message1 => exact Nat.zero_le _
  | message3 => exact Nat.zero_le _
  | _ => exact hretries

namespace Core

/-- The exchange and the handshake of a session are in range. -/
structure Session.InRange (session : Session S) : Prop where
  provider : ∀ p, session.auth = .preAssoc p → p.InRange
  retries : ∀ handshake, session.handshake = some handshake → handshake.retries ≤ retryLimit

/-- Everything of a session that is counted or measured fits the integer that holds it. -/
structure Session.Fits (session : Session S) : Prop where
  sync : ∀ p, session.auth = .preAssoc p → p.sync.toNat + 1 < 2 ^ 8
  token : ∀ p token, session.auth = .preAssoc p → p.token = some token → token.length + 1 < 2 ^ 8
  retries : ∀ handshake, session.handshake = some handshake → handshake.retries + 1 < 2 ^ 8
  frame : ∀ handshake, session.handshake = some handshake →
    bodyMin + handshake.config.assocRsnIe.length < 2 ^ 16
  element : ∀ n, session.choice.rsn = some n → (stationRsn session n).payload.length < 2 ^ 8

theorem Session.InRange.fits {session : Session S} (h : session.InRange) : session.Fits where
  sync p hp := (h.provider p hp).sync_lt
  token p token hp := (h.provider p hp).token token
  retries handshake hs := by
    have hle := h.retries handshake hs
    rw [retryLimit] at hle
    omega
  frame handshake _ := handshake.config.assocFits
  element n _ := by
    have hle := StationRsn.length_encode_le (stationRsn session n)
    simp only [StationRsn.encode, List.length_append, List.length_cons, List.length_nil] at hle
    omega

end Core

namespace Connection

variable {c c' : Connection S} {draws : Draws S} {input : Input} {r : Connection S × List Action}
  {session session' : Session S}

/-- The session, if there is one, is in range. -/
def InRange (c : Connection S) : Prop := ∀ session, c.session = some session → session.InRange

theorem inRange_of_none (h : c.session = none) : c.InRange :=
  fun _ hs => nomatch h.symm.trans hs

theorem inRange_of_eq (h : c.InRange) (hsession : c'.session = c.session) : c'.InRange :=
  fun session hs => h session (hsession ▸ hs)

/-- **A session that advances stays in range.** -/
theorem Advance.inRange (h : c.Advance session session') (hin : session.InRange) :
    session'.InRange := by
  cases h with
  | same => exact hin
  | heard signalDbm => exact ⟨hin.provider, hin.retries⟩
  | joined => exact ⟨by rintro _ ⟨⟩, hin.retries⟩
  | ready pmk n snonce =>
    refine ⟨by rintro _ ⟨⟩, ?_⟩
    rintro _ ⟨⟩
    exact Nat.zero_le _
  | asked => exact ⟨by rintro _ ⟨⟩, hin.retries⟩
  | derived provider pmk n snonce =>
    refine ⟨by rintro _ ⟨⟩, ?_⟩
    rintro _ ⟨⟩
    exact Nat.zero_le _
  | polled handshake input hhandshake =>
    refine ⟨hin.provider, ?_⟩
    rintro _ ⟨⟩
    exact FourWay.retries_poll (hin.retries handshake hhandshake) input

/-! ## The SAE exchange -/

/-- The exchange of the connection answers the event without a panic. -/
def Answers (c : Connection S) (event : SaeEvent) : Prop :=
  ∀ target session p, c.target = some target → c.session = some session → session.auth = .preAssoc p →
    SaeProvider.Handled (saeCall p (authContext target.ssid session.choice c.device.mac) event)

theorem InRange.answers {event : SaeEvent}
    (hcoordinates : ∀ q : S.curve.Point, S.curve.coordinates q = none → q = 0) (h : c.InRange)
    (hevent : event ≠ .start) : c.Answers event := by
  intro target session p htarget hsession hauth
  have hp := (h session hsession).provider p hauth
  cases event with
  | start => exact absurd rfl hevent
  | frame frame => exact SaeProvider.onFrame_handled hcoordinates hp frame
  | timeout => exact SaeProvider.onTimeout_handled hp

theorem onSaeStep_isSome {x : Except Crypto.Fault Step} (hx : x ≠ .error .panic)
    (htarget : c.target.isSome) (hsession : c.session.isSome) : (c.onSaeStep x).isSome := by
  unfold onSaeStep
  split
  · exact absurd rfl hx
  · rfl
  · rfl
  · split <;> rfl
  · obtain ⟨session, hs⟩ := Option.isSome_iff_exists.mp hsession
    obtain ⟨target, ht⟩ := Option.isSome_iff_exists.mp htarget
    simp [hs, ht, associate]

theorem driveSae_isSome {event : SaeEvent} (h : c.Answers event) : (c.driveSae event).isSome := by
  unfold driveSae
  split
  · rename_i target session htarget hsession
    split
    · rename_i p hauth
      exact onSaeStep_isSome (h target session p htarget hsession hauth).total (by simp [htarget]) rfl
    · rfl
  · rfl

theorem inRange_saeDriven {event : SaeEvent} (hin : c.InRange) (hanswers : c.Answers event)
    (hd : SaeDriven c event r) : r.1.InRange := by
  cases hd with
  | off => exact hin
  | call target session p q r htarget hsession hauth hq hm =>
    have hhandled := hanswers target session p htarget hsession hauth
    rw [hq] at hhandled
    have hretries := (hin session hsession).retries
    obtain ⟨p', x⟩ := q
    have hkept : (∃ step, x = .ok step) →
        (c.withSession (session.withAuth (.preAssoc p'))).InRange := by
      rintro hok _ ⟨⟩
      refine ⟨?_, hretries⟩
      rintro _ ⟨⟩
      exact hhandled.kept hok
    cases hm with
    | wait => exact hkept ⟨_, rfl⟩
    | send => exact hkept ⟨_, rfl⟩
    | noBody => exact inRange_of_none (fail_session _ _)
    | fail => exact inRange_of_none (fail_session _ _)
    | done target' held pmk htarget' hheld =>
      obtain rfl := Option.some.inj hheld
      rw [associateWith_fst]
      rintro _ ⟨⟩
      exact ⟨by rintro _ ⟨⟩, hretries⟩

/-! ## Planning -/

/-- The element of an exchange planned for the BSS is not the identity. -/
def Encodable (c : Connection S) (draws : Draws S) (bss : Bss) : Prop :=
  ∀ credential choice p, c.Chosen bss false credential choice →
    c.stage draws choice credential = .ok (.preAssoc p) →
    p.stationElement S.prim (authContext c.ssidBytes choice c.device.mac) ≠ 0

/-- So is the element of the exchange that a poll plans. -/
def Encodes (c : Connection S) (draws : Draws S) (input : Input) : Prop :=
  ∀ c' bss, c.plans input = some (c', bss, false) → c'.Encodable draws bss

theorem inRange_staged {choice : Choice} {credential : Credential} {p : SaeProvider S.curve}
    (h : c.stage draws choice credential = .ok (.preAssoc p)) : p.InRange := by
  unfold stage at h
  split at h
  · cases h
  · obtain ⟨secret, rfl⟩ := assemble_withSeed h
    exact SaeProvider.inRange_withSeed _ _

section Planning

variable {bss : Bss} {roaming : Bool} {credential : Credential} {choice : Choice}
  {p : SaeProvider S.curve}

theorem answers_start (hcoordinates : ∀ q : S.curve.Point, S.curve.coordinates q = none → q = 0)
    (hencodable : c.Encodable draws bss) (hchosen : c.Chosen bss false credential choice)
    (hstage : c.stage draws choice credential = .ok (.preAssoc p)) :
    ((c.withSession (newSession choice (.preAssoc p))).enter .authenticating).1.Answers .start := by
  intro target session p' htarget hsession hauth
  rw [enter_fst] at htarget hsession ⊢
  obtain rfl := Option.some.inj hsession
  cases hauth
  have hssid : c.ssidBytes = target.ssid := by
    rw [ssidBytes, show c.target = some target from htarget]
    rfl
  refine SaeProvider.startCall_handled hcoordinates (inRange_staged hstage) ?_
  rw [← hssid]
  exact hencodable credential choice p hchosen hstage

theorem plan_isSome (hcoordinates : ∀ q : S.curve.Point, S.curve.coordinates q = none → q = 0)
    (htarget : c.target.isSome) (hencodable : roaming = false → c.Encodable draws bss) :
    (c.plan draws bss roaming).isSome := by
  unfold plan
  dsimp only
  cases heval : c.evaluate bss (c.credential bss.rsn.isNone) roaming with
  | error failure => rfl
  | ok choice =>
    cases hcredential : c.credential bss.rsn.isNone with
    | none =>
      dsimp only
      split_ifs <;> rfl
    | some credential =>
      rw [hcredential] at heval
      dsimp only
      cases hstage : c.stage draws choice credential with
      | error failure => rfl
      | ok auth =>
        have hroaming : choice.roaming = roaming := by
          obtain ⟨rsn, -, rfl, -⟩ := evaluate_eq_ok heval
          rfl
        dsimp only [begin]
        split
        · rename_i p
          split_ifs with hroam
          · rfl
          · obtain rfl : roaming = false := by
              rw [← hroaming]
              simpa using hroam
            rw [startSae, tryThen, Option.isSome_map]
            exact driveSae_isSome
              (answers_start hcoordinates (hencodable rfl) ⟨hcredential, heval⟩ hstage)
        · obtain ⟨target, ht⟩ := Option.isSome_iff_exists.mp htarget
          simp [associate, ht]

theorem planBssid_isSome {scan : List Bss} {best : Bss} (hbest : best ∈ scan)
    (hplan : ∀ bss, (scan.find? fun bss => bss.bssid = best.bssid) = some bss →
      (c.plan draws bss roaming).isSome) : (c.planBssid draws scan best.bssid roaming).isSome := by
  have hfound : (scan.find? fun bss => bss.bssid = best.bssid).isSome :=
    List.find?_isSome.mpr ⟨best, hbest, by simp⟩
  obtain ⟨bss, hbss⟩ := Option.isSome_iff_exists.mp hfound
  rw [planBssid, hbss]
  exact hplan bss hbss

theorem onScanResults_isSome {scan : List Bss}
    (hcoordinates : ∀ q : S.curve.Point, S.curve.coordinates q = none → q = 0)
    (hencodes : c.Encodes draws (.scanResults scan)) : (c.onScanResults draws scan).isSome := by
  unfold onScanResults
  split
  · rename_i hst
    unfold select
    split
    · rename_i target htarget
      split
      · rename_i best hbest
        refine planBssid_isSome (Policy.bestBss_mem hbest).1 fun bss hbss =>
          plan_isSome hcoordinates (by simp [htarget]) fun _ => hencodes c bss ?_
        have hsame : c.withTarget target = c := by rw [withTarget, ← htarget]
        simp [plans, hst, selection, htarget, hbest, hbss, hsame]
      · rfl
    · rename_i htarget
      split
      · rename_i best p hbest
        refine planBssid_isSome (Policy.bestKnown_mem hbest).1 fun bss hbss =>
          plan_isSome hcoordinates rfl fun _ => hencodes _ bss ?_
        simp [plans, hst, selection, htarget, hbest, hbss]
      · rfl
  · unfold considerRoam
    split
    · rename_i session target hsession htarget
      dsimp only
      split
      · rfl
      · rename_i better hbetter
        exact planBssid_isSome (Policy.roamTarget_mem hbetter).1 fun bss hbss =>
          plan_isSome hcoordinates (by simp [htarget]) (by rintro ⟨⟩)
    · rfl
  · rfl

end Planning

/-! ## Keys -/

theorem startHandshake_isSome {n : Negotiated} {pmk : Pmk} (hsession : c.session = some session)
    (hn : session.choice.rsn = some n) : (c.startHandshake draws pmk).isSome := by
  unfold startHandshake
  simp only [hsession, hn]
  split <;> rfl

theorem driveDot1x_isSome {frame : Option Bytes} (h : c.Sound) : (c.driveDot1x draws frame).isSome := by
  unfold driveDot1x
  split
  · rename_i target session htarget hsession
    split
    · rename_i provider hauth
      dsimp only [onDot1xStep]
      split
      · rfl
      · rfl
      · obtain ⟨n, hn⟩ := Option.isSome_iff_exists.mp
          (h.secured session hsession (.inl (by rw [hauth]; rintro ⟨⟩)))
        exact startHandshake_isSome rfl hn
      · rfl
    · rfl
  · rfl

theorem driveHandshake_isSome {input : FourWay.Input} (h : c.Sound) :
    (c.driveHandshake input).isSome := by
  unfold driveHandshake
  split
  · rfl
  · rename_i session hsession
    split
    · rfl
    · rename_i handshake hhandshake
      obtain ⟨n, hn⟩ := Option.isSome_iff_exists.mp
        (h.secured session hsession (.inr (by simp [hhandshake])))
      dsimp only [onHandshakeActions]
      split
      · rfl
      · rw [Option.isSome_map]
        exact handshakeActions_isSome rfl hn

theorem onAssociated_isSome (h : c.Sound) : (c.onAssociated draws).isSome := by
  unfold onAssociated
  split
  · rfl
  · rename_i session hsession
    have hrsn : session.auth ≠ .open → ∃ n, session.choice.rsn = some n := fun hauth =>
      Option.isSome_iff_exists.mp (h.secured session hsession (.inl hauth))
    split
    · rfl
    · rfl
    · rename_i pmk hauth
      obtain ⟨n, hn⟩ := hrsn (by rw [hauth]; rintro ⟨⟩)
      exact startHandshake_isSome rfl hn
    · rename_i provider hauth
      have hsound : (c.enter .handshaking).1.Sound := by
        rw [enter_fst]
        exact ⟨⟨session, hsession⟩, h.targeted, h.secured⟩
      rw [tryThen, Option.isSome_map]
      exact driveDot1x_isSome hsound
    · rfl
    · rfl

/-! ## Polls -/

/-- **A poll returns**: nothing the source expects of its own values fails. -/
theorem poll_isSome (hcoordinates : ∀ q : S.curve.Point, S.curve.coordinates q = none → q = 0)
    (h : c.Sound) (hin : c.InRange) (hencodes : c.Encodes draws input) :
    (c.poll draws input).isSome := by
  cases input with
  | command command =>
    cases command with
    | connect ssid => rfl
    | autoconnect => rfl
    | disconnect => rfl
    | secret value =>
      simp only [poll, onCommand]
      split
      · rfl
      · rename_i target htarget
        split
        · rfl
        · rename_i bss hpending
          refine plan_isSome hcoordinates rfl fun _ => hencodes _ bss ?_
          simp only [plans, htarget]
          rw [show c.pending = some bss from hpending]
  | wireless event =>
    simp only [poll, onWireless]
    split
    · rfl
    · rfl
    · split_ifs
      · rfl
      · split
        · exact onAssociated_isSome h
        · rfl
        · rfl
    · rfl
    · rfl
    · split_ifs
      · rfl
      · split
        · exact driveSae_isSome (hin.answers hcoordinates (by rintro ⟨⟩))
        · rfl
    · rfl
    · rfl
  | scanResults scan => exact onScanResults_isSome hcoordinates hencodes
  | eapol frame =>
    simp only [poll, onEapol]
    split_ifs
    · rfl
    · split
      · rfl
      · split
        · exact driveHandshake_isSome h
        · exact driveDot1x_isSome h
        · rfl
        · rfl
  | lease event => rfl
  | timer id =>
    simp only [poll, onTimer]
    split
    · rfl
    · rfl
    · exact driveSae_isSome (hin.answers hcoordinates (by rintro ⟨⟩))
    · exact driveHandshake_isSome h
    · exact driveHandshake_isSome h
    · rfl
    · rfl

theorem inRange_planned {bss : Bss} {roaming : Bool}
    (hcoordinates : ∀ q : S.curve.Point, S.curve.coordinates q = none → q = 0) (hin : c.InRange)
    (hencodable : roaming = false → c.Encodable draws bss) (hp : Planned c draws bss roaming r) :
    r.1.InRange := by
  cases hp with
  | refused => exact inRange_of_none (fail_session _ _)
  | stay => exact hin
  | enterprise => exact inRange_of_none (fail_session _ _)
  | prompt => exact inRange_of_eq hin rfl
  | unstaged => exact inRange_of_none (fail_session _ _)
  | sae credential choice p q hchosen hstage hroaming hd =>
    obtain rfl : roaming = false := by
      obtain ⟨rsn, -, rfl, -⟩ := evaluate_eq_ok hchosen.evaluated
      exact hroaming
    show q.1.InRange
    refine inRange_saeDriven ?_ (answers_start hcoordinates (hencodable rfl) hchosen hstage) hd
    rw [enter_fst]
    rintro _ ⟨⟩
    refine ⟨?_, by rintro _ ⟨⟩⟩
    rintro _ ⟨⟩
    exact inRange_staged hstage
  | associate credential choice auth target hchosen hstage hpre =>
    rw [associateWith_fst]
    rintro _ ⟨⟩
    refine ⟨fun p hp => ?_, by rintro _ ⟨⟩⟩
    rw [requested_auth, newSession_auth] at hp
    split at hp
    · cases hp
    · exact absurd hp (hpre p)

/-- **A poll leaves the session in range.** -/
theorem inRange_move (hcoordinates : ∀ q : S.curve.Point, S.curve.coordinates q = none → q = 0)
    (hin : c.InRange) (hencodes : c.Encodes draws input) (hm : Move c draws input r) :
    r.1.InRange := by
  cases hplans : c.plans input with
  | none =>
    rcases hm.advances hplans with hadvances | ⟨event, ⟨hevent, -⟩, hd⟩
    · intro session' hs
      obtain ⟨session, hsession, hadvance⟩ := hadvances.session session' hs
      exact hadvance.inRange (hin session hsession)
    · exact inRange_saeDriven hin (hin.answers hcoordinates hevent) hd
  | some p =>
    obtain ⟨c', bss, roaming⟩ := p
    cases hm.course with
    | quiet _ hnone => exact nomatch hnone.symm.trans hplans
    | exchange event _ hnone => exact nomatch hnone.symm.trans hplans
    | planned _ _ _ _ hplans' htarget hbegins hp =>
      cases hplans.symm.trans hplans'
      refine inRange_planned hcoordinates (inRange_of_eq hin (plans_session hplans)) ?_ hp
      rintro rfl
      exact hencodes c' bss hplans

end Connection

end Caw
