import Caw.Eapol.Replay

/-!
# Group key reinstallation

When the group key in use is handed over for installation again.

* `delivers`, `lastDelivered`: the group keys a run hands over, and the last of them;
* `TakesGtk`, `IsCurrent`: the frames group keys are taken from;
* **`mem_delivers_iff`**: a poll hands over the group key of the frame it takes one from;
* **`group_key_reinstalled_iff`**: a run never hands over the group key in use exactly when it takes
  no frame that carries that key again.
-/

set_option autoImplicit false

namespace Caw

namespace FourWay

open Eapol (Error)
open Machine (Entry entry log Along)

variable {P : Primitives} {h h' : FourWay} {i : Input} {o : Except Error (List Action)}
  {past : List Event} {e : Event} {gtk : Gtk}

/-- The group key an action hands over. -/
def Action.gtk? : Action → Option Gtk
  | .complete keys => some keys.gtk
  | .newGtk gtk => some gtk
  | _ => none

/-- The group keys in the output of a poll. -/
def delivers : Except Error (List Action) → List Gtk
  | .ok actions => actions.filterMap Action.gtk?
  | .error _ => []

/-- The group key a run handed over last. -/
def lastDelivered (past : List Event) : Option Gtk :=
  (past.flatMap fun e => delivers e.output).getLast?

variable (P) in
/-- In this state the input is a frame the handshake takes the group key `gtk` from: a group
message 1, or the message 3 that installs. -/
def TakesGtk (h : FourWay) (i : Input) (gtk : Gtk) : Prop :=
  ∃ bytes eapol frame ptk keyData, i = .frame bytes ∧
    (GroupMessage1 P h bytes eapol frame ptk keyData gtk ∨
      (h.state = .awaitingMsg3 ∧ Message3 P h bytes eapol frame ptk keyData gtk))

variable (P) in
/-- `gtk` came with the last frame that a group key was taken from. -/
def IsCurrent (past : List Event) (gtk : Gtk) : Prop :=
  ∃ before e after, past = before ++ e :: after ∧ TakesGtk P e.pre e.input gtk ∧
    ∀ later ∈ after, ∀ g, ¬ TakesGtk P later.pre later.input g

theorem delivers_message3 (install : Bool) (sent : Bytes) (keys : Keys) :
    delivers (.ok ([.send sent, .disarmTimer] ++ completion install keys)) =
      if install then [keys.gtk] else [] := by
  cases install <;> rfl

/-- A step hands over nothing, or the one group key it takes from its frame. -/
theorem step_delivers (hs : Step P h i h' o) :
    delivers o = [] ∨ ∃ gtk, delivers o = [gtk] ∧ TakesGtk P h i gtk := by
  cases hs with
  | ignore _ => exact .inl rfl
  | quiet _ => exact .inl rfl
  | retransmit _ _ _ => exact .inl rfl
  | fail _ _ => exact .inl rfl
  | message1 _ _ _ _ _ _ => exact .inl rfl
  | groupMessage1 bytes eapol frame ptk keyData gtk hm =>
    exact .inr ⟨gtk, rfl, bytes, eapol, frame, ptk, keyData, rfl, .inl hm⟩
  | message3 bytes eapol frame ptk keyData gtk hm =>
    rw [delivers_message3]
    by_cases hst : h.state = .awaitingMsg3
    · exact .inr ⟨gtk, by simp [hst], bytes, eapol, frame, ptk, keyData, rfl, .inr ⟨hst, hm⟩⟩
    · exact .inl (by simp [hst])

theorem TakesGtk.delivers_eq (ht : TakesGtk P h i gtk) : delivers (h.poll P i).2 = [gtk] := by
  obtain ⟨bytes, eapol, frame, ptk, keyData, rfl, hm | ⟨hst, hm⟩⟩ := ht
  · rw [hm.poll_eq]
    rfl
  · rw [hm.poll_eq, delivers_message3]
    simp [hst]

/-- **A poll hands over the group key it takes from its frame**, and no other. -/
theorem mem_delivers_iff (h : FourWay) (i : Input) (gtk : Gtk) :
    gtk ∈ delivers (h.poll P i).2 ↔ TakesGtk P h i gtk := by
  constructor
  · intro hmem
    rcases step_delivers (poll_step (P := P) h i) with hnone | ⟨g, hone, ht⟩
    · rw [hnone] at hmem
      cases hmem
    · rw [hone, List.mem_singleton] at hmem
      rwa [hmem]
  · intro ht
    rw [ht.delivers_eq]
    exact List.mem_singleton_self gtk

theorem lastDelivered_concat (past : List Event) (e : Event) :
    lastDelivered (past ++ [e]) = (delivers e.output).getLast?.or (lastDelivered past) := by
  rw [lastDelivered, List.flatMap_append, List.flatMap_singleton, List.getLast?_append]
  rfl

/-- The current group key after a step is the one the step takes, or the one before it. -/
theorem isCurrent_concat (past : List Event) (e : Event) (gtk : Gtk) :
    IsCurrent P (past ++ [e]) gtk ↔ TakesGtk P e.pre e.input gtk ∨
      ((∀ g, ¬ TakesGtk P e.pre e.input g) ∧ IsCurrent P past gtk) :=
  Machine.latest_concat past e gtk

/-- **The last group key handed over is the one of the last frame that carried one**, in every run. -/
theorem lastDelivered_iff (h₀ : FourWay) (inputs : List Input) (gtk : Gtk) :
    lastDelivered (log (poll P) h₀ inputs) = some gtk ↔ IsCurrent P (log (poll P) h₀ inputs) gtk := by
  induction inputs using List.reverseRecOn generalizing gtk with
  | nil => exact ⟨fun hl => (nomatch hl), fun hc => absurd hc (Machine.not_latest_nil gtk)⟩
  | append_singleton inputs i ih =>
    obtain ⟨h, hh⟩ : ∃ h, h = Machine.exec (poll P) h₀ inputs := ⟨_, rfl⟩
    rw [Machine.log_concat, lastDelivered_concat, isCurrent_concat, ← ih, ← hh]
    simp only [Machine.entry_output, Machine.entry_pre, Machine.entry_input]
    rcases step_delivers (poll_step (P := P) h i) with hnone | ⟨g, hone, ht⟩
    · have hno (g : Gtk) : ¬ TakesGtk P h i g := by
        rw [← mem_delivers_iff, hnone]
        simp
      simp [hnone, hno]
    · have hiff : TakesGtk P h i gtk ↔ g = gtk := by
        rw [← mem_delivers_iff, hone, List.mem_singleton, eq_comm]
      simp only [hone, hiff, List.getLast?_singleton, Option.some_or, Option.some.injEq]
      exact ⟨.inl, fun hor => hor.resolve_right fun hr => hr.1 g ht⟩

/-- **The group key in use is never handed over again** in a run exactly when the run takes no frame
that carries it again. -/
theorem group_key_reinstalled_iff (P : Primitives) (pmk : Pmk) (config : Config)
    (snonce : Octets 32) (inputs : List Input) :
    Along (fun past e => ∀ gtk ∈ delivers e.output, lastDelivered past ≠ some gtk)
        (log (poll P) (withSnonce pmk config snonce) inputs) ↔
      Along (fun past e => ∀ gtk, TakesGtk P e.pre e.input gtk → ¬ IsCurrent P past gtk)
        (log (poll P) (withSnonce pmk config snonce) inputs) := by
  simp only [Machine.along_log_iff, Machine.entry_output, Machine.entry_pre, Machine.entry_input,
    mem_delivers_iff, ne_eq, lastDelivered_iff]

end FourWay

namespace Exchange

open FourWay (delivers lastDelivered)
open Machine (Entry log)

variable {P : Primitives} (x : Exchange P)

/-- **A repeated group message 1 reinstalls**: under a higher counter the group key in use is handed
over again, whatever the hash and cipher functions are. -/
theorem repeated_groupMsg1_reinstalls : ∃ past e,
    log (FourWay.poll P) x.station [.frame (x.msg1 1), .frame (x.msg3 2), .frame (x.groupMsg1 3),
      .frame (x.groupMsg1 4)] = past ++ [e] ∧
      lastDelivered past = some x.gtk ∧ x.gtk ∈ delivers e.output := by
  have hk1 := x.holds_station.keyed_awaiting 1
  have hk2 := hk1.established 2
  have hk3 : x.Keyed { established (x.awaiting x.station 1) 2 with rxCounter := some 3 } :=
    ⟨⟨hk2.pmk, hk2.config, hk2.snonce⟩, hk2.ptk, hk2.anonce, hk2.version⟩
  obtain ⟨r1, h1⟩ := x.holds_station.poll_msg1 1 (fun h => nomatch h) (fun _ h => nomatch h)
  obtain ⟨r2, h2⟩ := hk1.poll_msg3 2 (.inl rfl) (by rintro _ ⟨⟩; exact (by decide : (1 : UInt64) < 2))
  obtain ⟨r3, h3⟩ := hk2.poll_groupMsg1 3 rfl (by rintro _ ⟨⟩; exact (by decide : (2 : UInt64) < 3))
  obtain ⟨r4, h4⟩ := hk3.poll_groupMsg1 4 rfl (by rintro _ ⟨⟩; exact (by decide : (3 : UInt64) < 4))
  rw [Machine.log_cons_of_eq h1, Machine.log_cons_of_eq h2, Machine.log_cons_of_eq h3,
    Machine.log_cons_of_eq h4]
  exact ⟨[_, _, _], _, rfl, rfl, List.mem_singleton_self _⟩

end Exchange

namespace FourWay

open Machine (log Along)

/-- The sample run: a join, a group message 1, and the same again under a higher counter. -/
theorem group_key_reinstalled :
    ¬ Along (fun past e => ∀ gtk ∈ delivers e.output, lastDelivered past ≠ some gtk)
      (log (poll .sample) (withSnonce Sample.pmk Sample.config Sample.snonce)
        [.frame (Sample.exchange.msg1 1), .frame (Sample.exchange.msg3 2),
          .frame (Sample.exchange.groupMsg1 3), .frame (Sample.exchange.groupMsg1 4)]) := by
  intro halong
  obtain ⟨past, e, heq, hlast, hmem⟩ := Sample.exchange.repeated_groupMsg1_reinstalls
  exact halong past e [] heq _ hmem hlast

end FourWay

end Caw
