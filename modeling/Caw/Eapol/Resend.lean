import Caw.Eapol.Failed

/-!
# Retransmissions

How often a handshake sends its message 2 again, and when it stops.

* `resends`, `PairwiseAnswer`, `Message2`, `Concluded`: what a timeout sends, and the messages 1 and 3
  a run answers;
* `Pends`: a message 2 that is out, and how often it has been sent again;
* `Resending`: the law of the retransmissions of a run;
* `Outstanding`, `Kept`: the invariants that tie the retry count and the stored frame to the history;
* **`Outstanding.step`**, **`Kept.step`**, **`resending`**: they are kept, so every run obeys the law.
-/

set_option autoImplicit false

namespace Caw

namespace FourWay

open Eapol (Error)
open Machine (Entry entry log exec Along Latest)

variable {P : Primitives} {h h' : FourWay} {i : Input} {o : Except Error (List Action)}
  {past : List Event} {e : Event}

/-! ## Observations -/

/-- A timeout that has a frame sent. -/
def resends (e : Event) : Bool := e.input = .timeout && !(sends e.output).isEmpty

/-- The step answers a message 3 if `mic` holds, and a message 1 if it does not. -/
def PairwiseAnswer (e : Event) (mic : Bool) : Prop :=
  ∃ frame, answeredFrame e = some frame ∧ frame.keyInfo.pairwise = true ∧ frame.keyInfo.mic = mic

/-- The step answers a message 1 with this frame. -/
def Message2 (e : Event) (frame : Bytes) : Prop := PairwiseAnswer e false ∧ frame ∈ sends e.output

/-- A message 3 has been answered, and no message 1 since. -/
def Concluded (past : List Event) : Prop := Latest PairwiseAnswer past true

/-- No frame is answered. -/
def Unattended (stretch : List Event) : Prop := ∀ e ∈ stretch, answeredFrame e = none

/-- This message 2 is out, and timeouts have had it sent again this often: no message 1 or 3 has been
answered since, and nothing has failed. -/
def Pends (past : List Event) (frame : Bytes) (times : ℕ) : Prop :=
  ∃ before sent stretch, past = before ++ sent :: stretch ∧ Message2 sent frame ∧
    (∀ e ∈ stretch, (∀ mic, ¬ PairwiseAnswer e mic) ∧ ¬ Fails e.output) ∧
    stretch.countP resends = times

/-- **The law of retransmission.** -/
structure Resending (run : List Event) : Prop where
  /-- Between two answered frames, and after the last one, timeouts have few frames sent. -/
  bounded : ∀ before stretch after, run = before ++ stretch ++ after → Unattended stretch →
    stretch.countP resends ≤ retryLimit
  /-- The timeout after as many as there may be is an error. -/
  exhausted : ∀ before stretch e after, run = before ++ stretch ++ e :: after → Unattended stretch →
    stretch.countP resends = retryLimit → e.input = .timeout → Fails e.output
  /-- What a timeout has sent is the latest message 2, and the timer is armed again. -/
  faithful : Along (fun past e => e.input = .timeout → ∀ frame ∈ sends e.output,
    Latest Message2 past frame ∧ e.output = .ok [.send frame, .armTimer retryIntervalMs]) run
  /-- A message 2 that is out and has not been sent again so often is sent again by a timeout. -/
  resent : Along (fun past e => ∀ frame times, Pends past frame times → times < retryLimit →
    e.input = .timeout → e.output = .ok [.send frame, .armTimer retryIntervalMs]) run
  /-- Nothing is sent again once a message 3 has been answered, until a message 1 is. -/
  silent : Along (fun past e => Concluded past → e.input = .timeout → sends e.output = []) run

/-! ## The invariant -/

/-- The retry count bounds the retransmissions since the last answered frame, and the stored frame is
the message 2 that no message 3 has followed. -/
structure Outstanding (past : List Event) (h : FourWay) : Prop where
  limit : h.retries ≤ retryLimit
  cleared : h.lastSent = none → h.retries = 0
  since : ∀ before stretch, past = before ++ stretch → Unattended stretch →
    stretch.countP resends ≤ h.retries
  latest : ∀ frame, h.lastSent = some frame → Latest Message2 past frame
  concluded : Concluded past → h.lastSent = none

theorem outstanding_init (pmk : Pmk) (config : Config) (snonce : Octets 32) :
    Outstanding [] (withSnonce pmk config snonce) where
  limit := Nat.zero_le _
  cleared _ := rfl
  since before stretch heq _ := by
    obtain ⟨-, rfl⟩ := List.append_eq_nil_iff.mp heq.symm
    exact Nat.zero_le _
  latest frame hsent := nomatch hsent
  concluded _ := rfl

theorem Outstanding.since_concat {n : ℕ} (hout : Outstanding past h)
    (hn : answeredFrame e = none → h.retries + (if resends e then 1 else 0) ≤ n)
    (before stretch : List Event) (heq : past ++ [e] = before ++ stretch)
    (hun : Unattended stretch) : stretch.countP resends ≤ n := by
  rcases List.eq_nil_or_concat stretch with rfl | ⟨s, last, rfl⟩
  · exact Nat.zero_le _
  · rw [List.concat_eq_append, ← List.append_assoc] at heq
    obtain ⟨hpast, hlast⟩ := List.append_inj' heq rfl
    cases hlast
    rw [List.concat_eq_append] at hun ⊢
    have hs := hout.since before s hpast fun e' he' => hun e' (List.mem_append_left _ he')
    have hcount := hn (hun e (by simp))
    rw [List.countP_append, List.countP_singleton]
    omega

theorem not_message2_of_unanswered (hun : answeredFrame e = none) (frame : Bytes) :
    ¬ Message2 e frame := by
  rintro ⟨⟨f, hf, -⟩, -⟩
  rw [hun] at hf
  cases hf

theorem not_pairwiseAnswer_of_unanswered (hun : answeredFrame e = none) (mic : Bool) :
    ¬ PairwiseAnswer e mic := by
  rintro ⟨f, hf, -⟩
  rw [hun] at hf
  cases hf

theorem Outstanding.unanswered (hout : Outstanding past h) (hun : answeredFrame e = none)
    (hsent : h'.lastSent = h.lastSent)
    (hcount : h.retries + (if resends e then 1 else 0) ≤ h'.retries)
    (hlimit : h'.retries ≤ retryLimit) (hnone : h.lastSent = none → h'.retries = 0) :
    Outstanding (past ++ [e]) h' where
  limit := hlimit
  cleared hn := hnone (hsent ▸ hn)
  since := hout.since_concat fun _ => hcount
  latest frame hframe := by
    rw [Machine.latest_concat]
    exact .inr ⟨not_message2_of_unanswered hun, hout.latest frame (hsent ▸ hframe)⟩
  concluded hcon := by
    rw [Concluded, Machine.latest_concat] at hcon
    rw [hsent]
    exact hout.concluded (hcon.resolve_left (not_pairwiseAnswer_of_unanswered hun true)).2

theorem Incoming.answeredFrame_eq {bytes : Bytes} {eapol : Eapol} {frame : KeyFrame} {sent : Bytes}
    {actions : List Action} (hin : Incoming h bytes eapol frame) :
    answeredFrame ⟨h, .frame bytes, .ok (.send sent :: actions), h'⟩ = some frame := by
  rw [answeredFrame, sends, List.filterMap_cons_some (show Action.frame? (.send sent) = _ from rfl)]
  show (keyFrame bytes).toOption = some frame
  rw [hin.keyFrame_eq]
  rfl

/-- **One step keeps the invariant.** -/
theorem Outstanding.step (hout : Outstanding past h) (hs : Step P h i h' o) :
    Outstanding (past ++ [⟨h, i, o, h'⟩]) h' := by
  cases hs with
  | ignore bytes =>
    exact hout.unanswered rfl rfl (Nat.le_refl _) hout.limit hout.cleared
  | quiet hsent =>
    exact hout.unanswered rfl rfl (Nat.le_refl _) hout.limit hout.cleared
  | retransmit frame hsent hlt =>
    refine hout.unanswered rfl rfl (Nat.le_refl _) hlt fun hno => ?_
    rw [hsent] at hno
    cases hno
  | fail _ e =>
    refine hout.unanswered ?_ rfl ?_ hout.limit hout.cleared
    · cases i <;> rfl
    · cases i <;> exact Nat.le_refl _
  | groupMessage1 bytes eapol frame ptk keyData gtk hm =>
    have hans : answeredFrame ⟨h, .frame bytes, .ok [.send (h.signedGroupMsg2 P frame ptk),
        .newGtk gtk], { h with rxCounter := some frame.replayCounter }⟩ = some frame :=
      hm.toIncoming.answeredFrame_eq
    -- a group frame counts as answered, but the stored frame is left as it is
    have hgroup (mic : Bool) : ¬ PairwiseAnswer ⟨h, .frame bytes,
        .ok [.send (h.signedGroupMsg2 P frame ptk), .newGtk gtk],
        { h with rxCounter := some frame.replayCounter }⟩ mic := by
      rintro ⟨f, hf, hpair, -⟩
      rw [hans] at hf
      cases hf
      rw [hm.group] at hpair
      cases hpair
    refine ⟨hout.limit, hout.cleared, hout.since_concat fun hun => ?_, fun f hf => ?_, fun hcon => ?_⟩
    · rw [hans] at hun
      cases hun
    · rw [Machine.latest_concat]
      exact .inr ⟨fun b hb => hgroup false hb.1, hout.latest f hf⟩
    · rw [Concluded, Machine.latest_concat] at hcon
      exact hout.concluded (hcon.resolve_left (hgroup true)).2
  | message1 bytes eapol frame version ptk hm =>
    have hans : answeredFrame ⟨h, .frame bytes, .ok [.send (h.signedMsg2 P eapol frame version ptk),
        .armTimer retryIntervalMs], h.afterMsg1 eapol frame version ptk
          (h.signedMsg2 P eapol frame version ptk)⟩ = some frame := hm.toIncoming.answeredFrame_eq
    refine ⟨Nat.zero_le _, fun _ => rfl, hout.since_concat fun hun => ?_, fun f hf => ?_,
      fun hcon => ?_⟩
    · rw [hans] at hun
      cases hun
    · cases hf
      rw [Machine.latest_concat]
      exact .inl ⟨⟨frame, hans, hm.pairwise, hm.noMic⟩, List.mem_singleton.mpr rfl⟩
    · rw [Concluded, Machine.latest_concat] at hcon
      rcases hcon with ⟨f, hf, -, hmic⟩ | ⟨hno, -⟩
      · rw [hans] at hf
        cases hf
        rw [hm.noMic] at hmic
        cases hmic
      · exact absurd ⟨frame, hans, hm.pairwise, hm.noMic⟩ (hno false)
  | message3 bytes eapol frame ptk keyData gtk hm =>
    refine ⟨Nat.zero_le _, fun _ => rfl, hout.since_concat fun hun => ?_, fun f hf => ?_,
      fun _ => rfl⟩
    · have hans : answeredFrame ⟨h, .frame bytes, .ok ([.send (h.signedMsg4 P frame ptk),
          .disarmTimer] ++ completion (h.state = .awaitingMsg3) { ptk, gtk }), h.afterMsg3 frame⟩ =
            some frame := hm.toIncoming.answeredFrame_eq
      rw [hans] at hun
      cases hun
    · cases hf

/-! ## The message 2 that is out -/

/-- The message 2 that is out is stored, with the number of its retransmissions. -/
def Kept (past : List Event) (h : FourWay) : Prop :=
  ∀ frame times, Pends past frame times → h.lastSent = some frame ∧ h.retries = times

theorem kept_init (pmk : Pmk) (config : Config) (snonce : Octets 32) :
    Kept [] (withSnonce pmk config snonce) := by
  rintro frame times ⟨before, sent, stretch, heq, -⟩
  simp at heq

/-- The message 2 that is out one step later has just been sent, or it was out before. -/
theorem Pends.of_concat {frame : Bytes} {times : ℕ} (hp : Pends (past ++ [e]) frame times) :
    (Message2 e frame ∧ times = 0) ∨ ((∀ mic, ¬ PairwiseAnswer e mic) ∧ ¬ Fails e.output ∧
      ∃ before, Pends past frame before ∧ times = before + if resends e then 1 else 0) := by
  obtain ⟨before, sent, stretch, heq, hsent, hquiet, rfl⟩ := hp
  rcases List.eq_nil_or_concat stretch with rfl | ⟨s, last, rfl⟩
  · obtain ⟨-, hlast⟩ := List.append_inj' heq rfl
    cases hlast
    exact .inl ⟨hsent, rfl⟩
  · rw [List.concat_eq_append, ← List.cons_append, ← List.append_assoc] at heq
    obtain ⟨hpast, hlast⟩ := List.append_inj' heq rfl
    cases hlast
    rw [List.concat_eq_append] at hquiet ⊢
    obtain ⟨hpair, hok⟩ := hquiet e (by simp)
    refine .inr ⟨hpair, hok, _, ⟨before, sent, s, hpast, hsent,
      fun b hb => hquiet b (List.mem_append_left _ hb), rfl⟩, ?_⟩
    rw [List.countP_append, List.countP_singleton]

/-- A step that answers no message 1 and keeps the frame and the count in step. -/
theorem Kept.carry (hk : Kept past h) (hnone : ∀ frame, ¬ Message2 e frame)
    (hnext : ∀ frame, (∀ mic, ¬ PairwiseAnswer e mic) → ¬ Fails e.output → h.lastSent = some frame →
      h'.lastSent = some frame ∧ h'.retries = h.retries + if resends e then 1 else 0) :
    Kept (past ++ [e]) h' := by
  intro frame times hp
  rcases hp.of_concat with ⟨hsent, -⟩ | ⟨hpair, hok, before, hbefore, rfl⟩
  · exact absurd hsent (hnone frame)
  · obtain ⟨hlast, rfl⟩ := hk frame before hbefore
    exact hnext frame hpair hok hlast

/-- **One step keeps the message 2 that is out.** -/
theorem Kept.step (hk : Kept past h) (hs : Step P h i h' o) : Kept (past ++ [⟨h, i, o, h'⟩]) h' := by
  cases hs with
  | ignore bytes =>
    exact hk.carry (not_message2_of_unanswered rfl) fun frame _ _ hlast => ⟨hlast, rfl⟩
  | quiet hsent =>
    exact hk.carry (not_message2_of_unanswered rfl) fun frame _ _ hlast => ⟨hlast, rfl⟩
  | retransmit f hsent hlt =>
    exact hk.carry (not_message2_of_unanswered rfl) fun frame _ _ hlast => ⟨hlast, rfl⟩
  | fail _ err =>
    refine hk.carry (not_message2_of_unanswered ?_) fun frame _ hok _ => absurd ⟨err, rfl⟩ hok
    cases i <;> rfl
  | groupMessage1 bytes eapol frame ptk keyData gtk hm =>
    refine hk.carry ?_ fun frame _ _ hlast => ⟨hlast, rfl⟩
    rintro f ⟨⟨answered, hans, hpair, -⟩, -⟩
    rw [hm.toIncoming.answeredFrame_eq] at hans
    cases hans
    rw [hm.group] at hpair
    cases hpair
  | message1 bytes eapol frame version ptk hm =>
    intro f times hp
    rcases hp.of_concat with ⟨⟨-, hf⟩, rfl⟩ | ⟨hpair, -⟩
    · rw [List.mem_singleton.mp hf]
      exact ⟨rfl, rfl⟩
    · exact absurd ⟨frame, hm.toIncoming.answeredFrame_eq, hm.pairwise, hm.noMic⟩ (hpair false)
  | message3 bytes eapol frame ptk keyData gtk hm =>
    have hans : answeredFrame ⟨h, .frame bytes, .ok ([.send (h.signedMsg4 P frame ptk),
        .disarmTimer] ++ completion (h.state = .awaitingMsg3) { ptk, gtk }), h.afterMsg3 frame⟩ =
          some frame := hm.toIncoming.answeredFrame_eq
    refine hk.carry ?_ fun f hpair _ _ => absurd ⟨frame, hans, hm.pairwise, hm.mic⟩ (hpair true)
    rintro f ⟨⟨answered, hf, -, hmic⟩, -⟩
    rw [hans] at hf
    cases hf
    rw [hm.mic] at hmic
    cases hmic

theorem Kept.timeout {frame : Bytes} {times : ℕ} (hk : Kept past h) (hp : Pends past frame times)
    (hlt : times < retryLimit) :
    (h.poll P .timeout).2 = .ok [.send frame, .armTimer retryIntervalMs] := by
  obtain ⟨hsent, rfl⟩ := hk frame times hp
  have hmore : ¬ h.retries ≥ retryLimit := by omega
  have hagain : h.handle P .timeout = .ok ({ h with retries := h.retries + 1 },
      [.send frame, .armTimer retryIntervalMs]) := by
    rw [handle, onTimeout, hsent]
    simp only [hmore, if_false]
  rw [poll, hagain]

/-! ## Every run -/

theorem Outstanding.timeout (hout : Outstanding past h) (hs : Step P h .timeout h' o) :
    (∀ frame ∈ sends o, Latest Message2 past frame ∧
      o = .ok [.send frame, .armTimer retryIntervalMs]) ∧
      (Concluded past → sends o = []) ∧ (h.retries = retryLimit → Fails o) := by
  cases hs with
  | quiet hsent =>
    refine ⟨fun frame hf => (nomatch hf), fun _ => rfl, fun hfull => ?_⟩
    rw [hout.cleared hsent] at hfull
    cases hfull
  | retransmit frame hsent hlt =>
    refine ⟨fun f hf => ?_, fun hcon => ?_, fun hfull => absurd hfull hlt.ne⟩
    · rw [List.mem_singleton.mp hf]
      exact ⟨hout.latest frame hsent, rfl⟩
    · rw [hout.concluded hcon] at hsent
      cases hsent
  | fail _ e => exact ⟨fun frame hf => (nomatch hf), fun _ => rfl, fun _ => ⟨e, rfl⟩⟩

/-- **Every run of a handshake obeys the law of retransmission**: between two answered frames timeouts
have the latest message 2 sent again three times at most, the next one is an error, one that is out
and has not been sent again three times is, and after an answered message 3 none has anything sent. -/
theorem resending (P : Primitives) (pmk : Pmk) (config : Config) (snonce : Octets 32)
    (inputs : List Input) : Resending (log (poll P) (withSnonce pmk config snonce) inputs) := by
  have hall := Machine.along_of_inv (G := fun _ _ => True)
    (P := fun past e => Outstanding past e.pre ∧ Step P e.pre e.input e.post e.output)
    (outstanding_init pmk config snonce) (fun _ h i hout _ => hout.step (poll_step h i))
    (fun _ h i hout _ => ⟨hout, poll_step h i⟩) inputs fun _ _ _ _ => trivial
  have hkept := Machine.along_of_inv (G := fun _ _ => True)
    (P := fun past e => Kept past e.pre ∧ e.output = (e.pre.poll P e.input).2)
    (kept_init pmk config snonce) (fun _ h i hk _ => hk.step (poll_step h i))
    (fun _ h i hk _ => ⟨hk, rfl⟩) inputs fun _ _ _ _ => trivial
  refine ⟨?_, ?_, ?_, ?_, ?_⟩
  · rintro before stretch after heq hun
    rcases List.eq_nil_or_concat stretch with rfl | ⟨s, e, rfl⟩
    · exact Nat.zero_le _
    · obtain ⟨hout, hs⟩ := hall (before ++ s) e after (by simpa using heq)
      have hnext := hout.step hs
      exact (hnext.since before _ (by simp) hun).trans hnext.limit
  · rintro before stretch e after heq hun hcount hin
    obtain ⟨hout, hs⟩ := hall (before ++ stretch) e after heq
    rw [hin] at hs
    have hfull := hout.since before stretch rfl hun
    exact (hout.timeout hs).2.2 (le_antisymm hout.limit (hcount ▸ hfull))
  · intro past e rest heq hin
    obtain ⟨hout, hs⟩ := hall past e rest heq
    rw [hin] at hs
    exact (hout.timeout hs).1
  · intro past e rest heq frame times hp hlt hin
    obtain ⟨hk, hout⟩ := hkept past e rest heq
    rw [hout, hin]
    exact hk.timeout hp hlt
  · intro past e rest heq hcon hin
    obtain ⟨hout, hs⟩ := hall past e rest heq
    rw [hin] at hs
    exact (hout.timeout hs).2.1 hcon

end FourWay

end Caw
