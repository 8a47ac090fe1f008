import Caw.Eapol.Replay

/-!
# Pairwise key reinstallation

When a temporal key that was handed over for installation is handed over again.

* `installedTks`: the temporal keys a run hands over, in order;
* `RederivesHeld`: a message 1 derives again a temporal key an established handshake has held;
* **`installs_nodup`**: in a run without such a message 1 no temporal key is handed over twice;
* **`Exchange.repeated_message1_reinstalls`**: a repeated message 1 and the message 3 after it hand
  the same temporal key over again;
* `Exchange.rekey_installs`: a rekey under a fresh ANonce hands a second key over.
-/

set_option autoImplicit false

namespace Caw

namespace FourWay

open Eapol (Error)
open Machine (Entry entry log exec Along)

variable {P : Primitives} {h h' : FourWay} {i : Input} {o : Except Error (List Action)}
  {past : List Event}

/-! ## The pairwise key -/

/-- The temporal keys a run hands over for installation. -/
def installedTks (run : List Event) : List (Octets 16) :=
  (run.flatMap fun e => installs e.output).map fun keys => keys.ptk.tk

/-- The temporal key an established handshake holds. -/
def heldTk (h : FourWay) : Option (Octets 16) :=
  if h.state = .established then h.ptk.map Ptk.tk else none

variable (P) in
/-- The step answers a message 1 from which the handshake derives a temporal key it has held while
established. -/
def RederivesHeld (past : List Event) (e : Event) : Prop :=
  ∃ bytes eapol msg1 version ptk, e.input = .frame bytes ∧
    Message1 P e.pre bytes eapol msg1 version ptk ∧
    ∃ earlier ∈ past.map Entry.pre ++ [e.pre], heldTk earlier = some ptk.tk

/-- Every temporal key handed over was held since, no two are the same, and the one a message 3
would hand over is new. -/
structure Unrepeated (past : List Event) (h : FourWay) : Prop where
  nodup : (installedTks past).Nodup
  held : ∀ tk ∈ installedTks past, ∃ earlier ∈ past.map Entry.pre ++ [h], heldTk earlier = some tk
  pending : h.state = .awaitingMsg3 → ∀ ptk, h.ptk = some ptk → ptk.tk ∉ installedTks past

theorem installedTks_concat (past : List Event) (e : Event) :
    installedTks (past ++ [e]) = installedTks past ++
      (installs e.output).map fun keys => keys.ptk.tk := by
  simp [installedTks]

theorem Unrepeated.silent (hu : Unrepeated past h) (hout : installs o = [])
    (hpending : h'.state = .awaitingMsg3 → ∀ ptk, h'.ptk = some ptk → ptk.tk ∉ installedTks past) :
    Unrepeated (past ++ [⟨h, i, o, h'⟩]) h' := by
  have hsame : installedTks (past ++ [⟨h, i, o, h'⟩]) = installedTks past := by
    rw [installedTks_concat, hout, List.map_nil, List.append_nil]
  refine ⟨hsame ▸ hu.nodup, ?_, hsame ▸ hpending⟩
  rw [hsame]
  intro tk htk
  obtain ⟨earlier, hmem, hheld⟩ := hu.held tk htk
  refine ⟨earlier, ?_, hheld⟩
  rw [List.map_append]
  exact List.mem_append_left _ hmem

/-- **One step that meets the guard keeps the invariant.** -/
theorem Unrepeated.step (hu : Unrepeated past h) (hs : Step P h i h' o)
    (hguard : ¬ RederivesHeld P past ⟨h, i, o, h'⟩) : Unrepeated (past ++ [⟨h, i, o, h'⟩]) h' := by
  cases hs with
  | ignore bytes => exact hu.silent rfl hu.pending
  | quiet _ => exact hu.silent rfl hu.pending
  | retransmit f _ _ => exact hu.silent rfl hu.pending
  | fail _ e => exact hu.silent rfl fun hst => nomatch hst
  | groupMessage1 bytes eapol frame ptk keyData gtk hm => exact hu.silent rfl hu.pending
  | message1 bytes eapol frame version ptk hm =>
    refine hu.silent rfl ?_
    rintro - p ⟨⟩ hmem
    obtain ⟨earlier, hearlier, hheld⟩ := hu.held _ hmem
    exact hguard ⟨bytes, eapol, frame, version, ptk, rfl, hm, earlier, hearlier, hheld⟩
  | message3 bytes eapol frame ptk keyData gtk hm =>
    rcases hm.expected with hst | hst
    · -- the keys are handed over: the pending one is new, and it is held from now on
      have hnew := hu.pending hst ptk hm.current
      have hout : installedTks (past ++ [⟨h, .frame bytes, .ok ([.send (h.signedMsg4 P frame ptk),
          .disarmTimer] ++ completion (h.state = .awaitingMsg3) { ptk, gtk }), h.afterMsg3 frame⟩]) =
            installedTks past ++ [ptk.tk] := by
        rw [installedTks_concat, installs_message3, hst]
        rfl
      refine ⟨?_, ?_, fun hst' => nomatch hst'⟩
      · rw [hout]
        exact List.nodup_append.mpr ⟨hu.nodup, List.nodup_singleton _, fun a ha b hb => by
          rw [List.mem_singleton.mp hb]; rintro rfl; exact hnew ha⟩
      · rw [hout]
        intro tk htk
        rcases List.mem_append.mp htk with htk | htk
        · obtain ⟨earlier, hmem, hheld⟩ := hu.held tk htk
          refine ⟨earlier, ?_, hheld⟩
          rw [List.map_append]
          exact List.mem_append_left _ hmem
        · rw [List.mem_singleton.mp htk]
          refine ⟨h.afterMsg3 frame, by simp, ?_⟩
          simp [heldTk, afterMsg3, hm.current]
    · refine hu.silent ?_ fun hst' => nomatch hst'
      rw [installs_message3, hst]
      rfl

/-- **No temporal key is handed over twice** in a run that answers no message 1 deriving again one
that an established handshake has held. -/
theorem installs_nodup (P : Primitives) (pmk : Pmk) (config : Config) (snonce : Octets 32)
    (inputs : List Input)
    (hguard : Along (fun past e => ¬ RederivesHeld P past e)
      (log (poll P) (withSnonce pmk config snonce) inputs)) :
    (installedTks (log (poll P) (withSnonce pmk config snonce) inputs)).Nodup := by
  have hinit : Unrepeated [] (withSnonce pmk config snonce) :=
    ⟨List.nodup_nil, fun tk htk => (nomatch htk), fun hst => (nomatch hst)⟩
  exact (Machine.run_induction hinit (fun _ h i hu hg => hu.step (poll_step h i) hg) inputs
    hguard).nodup

theorem not_rederivesHeld_of_mic {bytes : Bytes} {frame : KeyFrame} {e : Event}
    (hin : e.input = .frame bytes) (hread : keyFrame bytes = .ok frame)
    (hmic : frame.keyInfo.mic = true) : ¬ RederivesHeld P past e := by
  rintro ⟨b, eapol, msg1, version, ptk, hb, hm, -⟩
  rw [hin] at hb
  cases hb
  have hno := hm.noMic
  rw [hm.toIncoming.keyFrame_eq] at hread
  cases hread
  rw [hmic] at hno
  cases hno

end FourWay

namespace Exchange

open FourWay
open Eapol (Error)
open Machine (Entry log Along)

variable {P : Primitives} (x : Exchange P) {h h' : FourWay} {o : Except Error (List Action)}
  {past : List Event}

theorem keyFrame_msg3 (counter : UInt64) : ∃ frame, keyFrame (x.msg3 counter) = .ok frame ∧
    frame.keyInfo.mic = true := by
  refine ⟨_, keyFrame_encodeSigned _ _ _ _ x.fits, ?_⟩
  exact (Authenticator.msg3_flags .hmacSha1).2.2.2.1

/-- **A repeated message 1 reinstalls**: the message 3 that follows it hands over the temporal key
that is in use, whatever the hash and cipher functions are. -/
theorem repeated_message1_reinstalls :
    installedTks (log (poll P) x.station
      [.frame (x.msg1 1), .frame (x.msg3 2), .frame (x.msg1 3), .frame (x.msg3 4)]) =
        [x.ptk.tk, x.ptk.tk] := by
  have hk1 := x.holds_station.keyed_awaiting 1
  have hk2 := hk1.established 2
  have hk3 := hk2.toHolds.keyed_awaiting 3
  obtain ⟨r1, h1⟩ := x.holds_station.poll_msg1 1 (fun h => nomatch h) (fun _ h => nomatch h)
  obtain ⟨r2, h2⟩ := hk1.poll_msg3 2 (.inl rfl) (by rintro _ ⟨⟩; exact (by decide : (1 : UInt64) < 2))
  obtain ⟨r3, h3⟩ := hk2.toHolds.poll_msg1 3 (fun h => nomatch h)
    (by rintro _ ⟨⟩; exact (by decide : (2 : UInt64) < 3))
  obtain ⟨r4, h4⟩ := hk3.poll_msg3 4 (.inl rfl) (by rintro _ ⟨⟩; exact (by decide : (3 : UInt64) < 4))
  rw [Machine.log_cons_of_eq h1, Machine.log_cons_of_eq h2, Machine.log_cons_of_eq h3,
    Machine.log_cons_of_eq h4]
  rfl

/-- **A rekey hands the second key over**, when the access point's second message 1 has another
ANonce. -/
theorem rekey_installs (y : Exchange P) (hsame : y.Holds x.station) :
    installedTks (log (poll P) x.station
      [.frame (x.msg1 1), .frame (x.msg3 2), .frame (y.msg1 3), .frame (y.msg3 4)]) =
        [x.ptk.tk, y.ptk.tk] := by
  have hk1 := x.holds_station.keyed_awaiting 1
  have hy2 : y.Holds (established (x.awaiting x.station 1) 2) :=
    ⟨hsame.pmk, hsame.config, hsame.snonce⟩
  have hk3 := hy2.keyed_awaiting 3
  obtain ⟨r1, h1⟩ := x.holds_station.poll_msg1 1 (fun h => nomatch h) (fun _ h => nomatch h)
  obtain ⟨r2, h2⟩ := hk1.poll_msg3 2 (.inl rfl) (by rintro _ ⟨⟩; exact (by decide : (1 : UInt64) < 2))
  obtain ⟨r3, h3⟩ := hy2.poll_msg1 3 (fun h => nomatch h)
    (by rintro _ ⟨⟩; exact (by decide : (2 : UInt64) < 3))
  obtain ⟨r4, h4⟩ := hk3.poll_msg3 4 (.inl rfl) (by rintro _ ⟨⟩; exact (by decide : (3 : UInt64) < 4))
  rw [Machine.log_cons_of_eq h1, Machine.log_cons_of_eq h2, Machine.log_cons_of_eq h3,
    Machine.log_cons_of_eq h4]
  rfl

/-- A message 1 of this association rederives its own temporal key and no other. -/
theorem Holds.not_rederivesHeld {x : Exchange P} (hx : x.Holds h) {counter : UInt64}
    (hrun : h.state ≠ .failed) (hfresh : ∀ seen, h.rxCounter = some seen → seen < counter)
    (hnew : ∀ earlier ∈ past.map Entry.pre ++ [h], heldTk earlier ≠ some x.ptk.tk) :
    ¬ RederivesHeld P past ⟨h, .frame (x.msg1 counter), o, h'⟩ := by
  rintro ⟨_, eapol, msg1, version, ptk, ⟨⟩, hm, earlier, hmem, hheld⟩
  have hpolls := hm.poll_eq.symm.trans (hx.message1 counter hrun hfresh).poll_eq
  have hptk : ptk = x.ptk := Option.some.inj (congrArg (fun r => r.1.ptk) hpolls)
  exact hnew earlier hmem (hptk ▸ hheld)

/-- **A rekey under a fresh ANonce rederives nothing**, when the two temporal keys differ. -/
theorem rekey_guarded (y : Exchange P) (hsame : y.Holds x.station) (htk : x.ptk.tk ≠ y.ptk.tk) :
    Along (fun past e => ¬ RederivesHeld P past e) (log (poll P) x.station
      [.frame (x.msg1 1), .frame (x.msg3 2), .frame (y.msg1 3), .frame (y.msg3 4)]) := by
  have hk1 := x.holds_station.keyed_awaiting 1
  have hy2 : y.Holds (established (x.awaiting x.station 1) 2) :=
    ⟨hsame.pmk, hsame.config, hsame.snonce⟩
  obtain ⟨r1, h1⟩ := x.holds_station.poll_msg1 1 (fun h => nomatch h) (fun _ h => nomatch h)
  obtain ⟨r2, h2⟩ := hk1.poll_msg3 2 (.inl rfl) (by rintro _ ⟨⟩; exact (by decide : (1 : UInt64) < 2))
  have hfresh : ∀ seen, some (2 : UInt64) = some seen → seen < 3 := by
    rintro _ ⟨⟩
    decide
  obtain ⟨r3, h3⟩ := hy2.poll_msg1 3 (fun h => nomatch h) hfresh
  obtain ⟨frame, hread, hmic⟩ := x.keyFrame_msg3 2
  obtain ⟨frame', hread', hmic'⟩ := y.keyFrame_msg3 4
  rw [Machine.log_cons_of_eq h1, Machine.log_cons_of_eq h2, Machine.log_cons_of_eq h3, log, log]
  refine (Machine.along_concat [_, _, _] _).mpr ⟨(Machine.along_concat [_, _] _).mpr
    ⟨(Machine.along_concat [_] _).mpr ⟨(Machine.along_concat [] _).mpr
      ⟨Machine.along_nil, ?_⟩, not_rederivesHeld_of_mic rfl hread hmic⟩, ?_⟩,
    not_rederivesHeld_of_mic rfl hread' hmic'⟩
  · refine x.holds_station.not_rederivesHeld (fun h => nomatch h) (fun _ h => nomatch h) ?_
    rintro earlier hmem hheld
    rw [List.map_nil, List.nil_append, List.mem_singleton] at hmem
    subst hmem
    cases hheld
  · refine hy2.not_rederivesHeld (fun h => nomatch h) hfresh ?_
    intro earlier hmem hheld
    simp only [List.map_cons, List.map_nil, List.cons_append, List.nil_append, List.mem_cons,
      List.not_mem_nil, or_false] at hmem
    -- the keys are held from message 3 on
    rcases hmem with rfl | rfl | rfl
    · cases hheld
    · cases hheld
    · exact htk (Option.some.inj hheld)

end Exchange

namespace Sample

/-- The ANonce of a rekey. -/
def nextAnonce : Octets 32 := List.Vector.replicate 32 0x44

/-- The keys derived from it. -/
def nextPtk : Ptk :=
  Ptk.split (prfSha1 .sample pmk.toList ptkLabel
    (bssid.toList ++ ownMac.toList ++ snonce.toList ++ nextAnonce.toList) ptkLen).toList

theorem derived_next : derivePtk .sample pmk .psk bssid ownMac nextAnonce snonce = .ok nextPtk := by
  have hmac : Octets.lt bssid ownMac = true := by decide
  have hnonce : Octets.lt nextAnonce snonce = false := by decide
  simp only [derivePtk, hmac, hnonce, if_true]
  rfl

/-- The sample association after a rekey. -/
def rekeyed : Exchange .sample :=
  { exchange with
    anonce := nextAnonce
    ptk := nextPtk
    derived := derived_next
    unwrapped := Primitives.sample_unwrap nextPtk.kek keyData (by decide) (by decide) }

end Sample

namespace FourWay

open Machine (log)

/-- The sample run: message 1, message 3, message 1 again under a higher counter, message 3. -/
theorem temporal_key_reinstalled :
    ¬ (installedTks (log (poll .sample) (withSnonce Sample.pmk Sample.config Sample.snonce)
      [.frame (Sample.exchange.msg1 1), .frame (Sample.exchange.msg3 2),
        .frame (Sample.exchange.msg1 3), .frame (Sample.exchange.msg3 4)])).Nodup := by
  intro hnodup
  have htwice := Sample.exchange.repeated_message1_reinstalls
  change installedTks (log (poll .sample) (withSnonce Sample.pmk Sample.config Sample.snonce) _) = _
    at htwice
  rw [htwice] at hnodup
  simp at hnodup

/-- The law on the sample run of a handshake and a rekey: two temporal keys are handed over. -/
theorem installs_nodup_sample :
    (installedTks (log (poll .sample) (withSnonce Sample.pmk Sample.config Sample.snonce)
        [.frame (Sample.exchange.msg1 1), .frame (Sample.exchange.msg3 2),
          .frame (Sample.rekeyed.msg1 3), .frame (Sample.rekeyed.msg3 4)])).Nodup ∧
      installedTks (log (poll .sample) (withSnonce Sample.pmk Sample.config Sample.snonce)
        [.frame (Sample.exchange.msg1 1), .frame (Sample.exchange.msg3 2),
          .frame (Sample.rekeyed.msg1 3), .frame (Sample.rekeyed.msg3 4)]) =
        [Sample.ptk.tk, Sample.nextPtk.tk] :=
  ⟨installs_nodup .sample Sample.pmk Sample.config Sample.snonce _
      (Sample.exchange.rekey_guarded Sample.rekeyed ⟨rfl, rfl, rfl⟩ (by decide +kernel)),
    Sample.exchange.rekey_installs Sample.rekeyed ⟨rfl, rfl, rfl⟩⟩

end FourWay

end Caw
