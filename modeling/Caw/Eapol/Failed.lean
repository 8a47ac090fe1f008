import Caw.Eapol.Replay

/-!
# After a failure

What a handshake that has failed still does.

* `Failed`, `Spent`: an error has been returned, and the retransmissions are used up;
* `poll_failed`: a failed handshake refuses every frame, but not every timeout;
* **`failed_final_iff`**: in a run every poll after a failure fails exactly when no timeout comes
  while a retransmission is left;
* `failure_retransmits`, `failure_not_final`: one that comes has message 2 sent again.
-/

set_option autoImplicit false

namespace Caw

namespace FourWay

open Eapol (Error)
open Machine (Entry entry log exec Along)

variable {P : Primitives} {h h' : FourWay} {i : Input} {o : Except Error (List Action)}
  {past : List Event}

/-- The poll returned an error, and so no action. -/
def Fails (o : Except Error (List Action)) : Prop := ∃ e, o = .error e

/-- A poll has failed. -/
def Failed (past : List Event) : Prop := ∃ e ∈ past, Fails e.output

/-- A frame is outstanding, and it has been retransmitted as often as it may be. -/
def Spent (h : FourWay) : Prop := ∃ frame, h.lastSent = some frame ∧ retryLimit ≤ h.retries

/-- The input is one that a failed handshake refuses. -/
def Refused (h : FourWay) (i : Input) : Prop := (∃ bytes, i = .frame bytes) ∨ h.Spent

theorem not_fails_ok (actions : List Action) : ¬ Fails (.ok actions) := by
  rintro ⟨e, he⟩
  cases he

/-- A handshake that has failed refuses every frame. A timeout it refuses once the retransmissions
are used up; before, it sends the outstanding frame, if there is one. -/
theorem poll_failed (hst : h.state = .failed) (i : Input) :
    (h.poll P i).1.state = .failed ∧ (Fails (h.poll P i).2 ↔ Refused h i) := by
  cases i with
  | frame bytes =>
    have hpoll : h.poll P (.frame bytes) = ({ h with state := .failed }, .error .unexpectedMessage) := by
      simp only [poll, handle, onFrame, hst, if_true]
    rw [hpoll]
    exact ⟨rfl, fun _ => .inl ⟨bytes, rfl⟩, fun _ => ⟨_, rfl⟩⟩
  | timeout =>
    cases hsent : h.lastSent with
    | none =>
      have hpoll : h.poll P .timeout = (h, .ok []) := by
        simp only [poll, handle, onTimeout, hsent]
      rw [hpoll]
      refine ⟨hst, fun hfails => absurd hfails (not_fails_ok _), ?_⟩
      rintro (⟨bytes, hbytes⟩ | ⟨frame, hframe, -⟩)
      · cases hbytes
      · rw [hsent] at hframe
        cases hframe
    | some frame =>
      by_cases hlimit : h.retries ≥ retryLimit
      · have hpoll : h.poll P .timeout = ({ h with state := .failed }, .error .timeout) := by
          simp only [poll, handle, onTimeout, hsent, if_pos hlimit]
        rw [hpoll]
        exact ⟨rfl, fun _ => .inr ⟨frame, hsent, hlimit⟩, fun _ => ⟨_, rfl⟩⟩
      · have hpoll : h.poll P .timeout = ({ h with retries := h.retries + 1 },
            .ok [.send frame, .armTimer retryIntervalMs]) := by
          simp only [poll, handle, onTimeout, hsent, if_neg hlimit]
        rw [hpoll]
        refine ⟨hst, fun hfails => absurd hfails (not_fails_ok _), ?_⟩
        rintro (⟨bytes, hbytes⟩ | ⟨_, -, hle⟩)
        · cases hbytes
        · exact absurd hle hlimit

theorem state_of_fails (hfails : Fails (h.poll P i).2) : (h.poll P i).1.state = .failed := by
  obtain ⟨e, he⟩ := hfails
  unfold poll at he ⊢
  split at he
  · cases he
  · rfl

theorem failed_concat (past : List Event) (e : Event) :
    Failed (past ++ [e]) ↔ Failed past ∨ Fails e.output := by
  simp [Failed, or_and_right, exists_or]

/-- **A failure is kept**: after it the handshake is in the failed state. -/
theorem state_of_failed (h₀ : FourWay) (inputs : List Input)
    (hfailed : Failed (log (poll P) h₀ inputs)) : (exec (poll P) h₀ inputs).state = .failed := by
  refine Machine.run_induction (J := fun past (h : FourWay) => Failed past → h.state = .failed)
    (G := fun _ _ => True) (fun hno => ?_) (fun past h i hpast _ hafter => ?_) inputs
    (fun _ _ _ _ => trivial) hfailed
  · obtain ⟨e, hmem, -⟩ := hno
    cases hmem
  · rcases (failed_concat past _).mp hafter with hbefore | hnow
    · exact (poll_failed (hpast hbefore) i).1
    · exact state_of_fails hnow

/-- **What is final after a failure.** In every run each poll after a failed one fails exactly when
each of them is fed a frame, or a timeout with no retransmission left. -/
theorem failed_final_iff (P : Primitives) (pmk : Pmk) (config : Config) (snonce : Octets 32)
    (inputs : List Input) :
    Along (fun past e => Failed past → Fails e.output)
        (log (poll P) (withSnonce pmk config snonce) inputs) ↔
      Along (fun past e => Failed past → Refused e.pre e.input)
        (log (poll P) (withSnonce pmk config snonce) inputs) := by
  simp only [Machine.along_log_iff, Machine.entry_pre, Machine.entry_input, Machine.entry_output]
  refine forall₃_congr fun before i after => forall₂_congr fun _ hfailed => ?_
  exact (poll_failed (state_of_failed _ before hfailed) i).2

/-! ## A failure that leaves a frame outstanding -/

/-- An EAPOL-Key frame without a descriptor. -/
def emptyKey : Bytes := [2, 3, 0, 0]

theorem poll_emptyKey (hrun : h.state ≠ .failed) :
    h.poll P (.frame emptyKey) = ({ h with state := .failed }, .error .malformed) := by
  have hparse : Eapol.parse emptyKey = .ok ⟨2, .key, [], emptyKey⟩ := by decide
  have hbody : KeyFrame.parse [] = .error .malformed := by decide
  simp only [poll, handle, onFrame, if_neg hrun, hparse, hbody, Except.ok_bind]
  rfl

end FourWay

namespace Exchange

open FourWay (Failed emptyKey poll_emptyKey)
open Machine (log)

variable {P : Primitives} (x : Exchange P)

/-- **A timeout after the failure has message 2 sent again**, whatever the hash and cipher functions
are. -/
theorem failure_retransmits : ∃ past e,
    log (FourWay.poll P) x.station [.frame (x.msg1 1), .frame emptyKey, .timeout] = past ++ [e] ∧
      Failed past ∧ ∃ msg2, e.output = .ok [.send msg2, .armTimer retryIntervalMs] := by
  obtain ⟨msg2, h1⟩ := x.holds_station.poll_msg1 1 (fun hst => nomatch hst)
    (fun _ hseen => nomatch hseen)
  have h2 := poll_emptyKey (P := P) (h := x.awaiting x.station 1) fun hst => nomatch hst
  rw [Machine.log_cons_of_eq h1, Machine.log_cons_of_eq h2]
  exact ⟨[_, _], _, rfl, ⟨_, List.mem_cons_of_mem _ List.mem_cons_self, _, rfl⟩, _, rfl⟩

end Exchange

namespace FourWay

open Machine (log Along)

/-- The sample run: message 1, a frame that fails the handshake, and a timeout. -/
theorem failure_not_final : ¬ Along (fun past e => Failed past → Fails e.output)
    (log (poll .sample) (withSnonce Sample.pmk Sample.config Sample.snonce)
      [.frame (Sample.exchange.msg1 1), .frame emptyKey, .timeout]) := by
  intro halong
  obtain ⟨past, e, heq, hfailed, msg2, hout⟩ := Sample.exchange.failure_retransmits
  have hfails := halong past e [] heq hfailed
  rw [hout] at hfails
  exact not_fails_ok _ hfails

end FourWay

end Caw
