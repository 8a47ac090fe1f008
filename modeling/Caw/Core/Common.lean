import Caw.Core.Invariant

/-!
# What only one kind of poll asks for

Scan results are fetched at the end of a scan, and keys are installed by the 4-way handshake; any poll
may ask for anything else.

* `Common`, `Connection.common_fail`, `common_planned`, …: actions that are neither;
* **`Connection.common_move`**: a poll asks for nothing else, or it is one of these two.
-/

set_option autoImplicit false

namespace Caw

open Caw.Core

/-- Neither fetches scan results nor installs keys. -/
def Core.Action.Common : Action → Prop
  | .fetchScanResults _ | .installKeys _ => False
  | _ => True

namespace Connection

variable {S : Platform}

/-- No action fetches scan results or installs keys. -/
def Common (actions : List Action) : Prop := ∀ action ∈ actions, action.Common

section Common

variable {actions rest : List Action}

theorem common_nil : Common [] := fun _ hmem => absurd hmem List.not_mem_nil

theorem Common.append (h : Common actions) (hrest : Common rest) : Common (actions ++ rest) :=
  fun action hmem => (List.mem_append.mp hmem).elim (h action) (hrest action)

theorem Common.cons {action : Action} (h : Common actions) (haction : action.Common) :
    Common (action :: actions) :=
  List.forall_mem_cons.mpr ⟨haction, h⟩

theorem common_singleton {action : Action} (haction : action.Common) : Common [action] :=
  common_nil.cons haction

variable (c : Connection S)

theorem common_disarm : Common c.disarm.2 := by
  intro action hmem
  obtain ⟨id, -, rfl⟩ := Option.map_eq_some_iff.mp (Option.mem_toList.mp hmem)
  trivial

theorem common_leaving (state : State) : Common (c.leaving state) := by
  unfold leaving
  split_ifs
  · exact common_disarm c
  · exact common_nil

theorem common_enter (state : State) : Common (c.enter state).2 := by
  rw [enter_snd]
  exact (common_leaving c state).append (common_singleton trivial)

theorem common_startScan : Common c.startScan.2 :=
  (common_enter c .scanning).append (Common.cons (common_singleton trivial) trivial)

theorem common_goIdle : Common c.goIdle.2 :=
  (common_disarm c).append (common_singleton trivial)

theorem common_fail (failure : Failure) : Common (c.fail failure).2 := by
  unfold fail
  rw [andThen_snd]
  refine Common.append ?_ ?_
  · split_ifs
    · exact common_singleton trivial
    · exact common_nil
  · dsimp only
    split_ifs
    · exact (common_enter _ _).append (common_singleton trivial)
    · exact (common_disarm _).append (common_singleton trivial)

theorem common_associateWith (target : Target) (session : Session S) :
    Common (c.associateWith target session).2 := by
  rw [associateWith_snd]
  exact (common_leaving _ _).append
    (Common.cons (Common.cons (common_singleton trivial) trivial) trivial)

theorem common_configured : Common c.configured.2 := by
  unfold configured
  split_ifs
  · exact (common_enter _ _).append common_nil
  · exact (common_enter _ _).append (common_singleton trivial)

theorem common_saveProfile : Common c.saveProfile.2 := by
  unfold saveProfile
  split
  · split_ifs
    · exact common_nil
    · split
      · exact common_nil
      · exact common_singleton trivial
  · exact common_nil

end Common

variable {c : Connection S} {draws : Draws S} {input : Input} {r : Connection S × List Action}

theorem common_saeDriven {event : SaeEvent} (hd : SaeDriven c event r) : Common r.2 := by
  cases hd with
  | off => exact common_nil
  | call target session provider q r htarget hsession hauth hq hm =>
    obtain ⟨p, x⟩ := q
    cases hm with
    | wait => exact common_nil
    | send frame request => exact Common.cons (common_singleton trivial) trivial
    | noBody => exact common_fail _ _
    | done => exact common_associateWith _ _ _
    | fail => exact common_fail _ _

theorem common_keyStart {pmk : Pmk} (hk : KeyStart c draws pmk r) : Common r.2 := by
  cases hk with
  | noNonce => exact common_fail _ _
  | start => exact common_enter _ _

theorem common_dot1xDriven {frame : Option Bytes} (hd : Dot1xDriven c draws frame r) :
    Common r.2 := by
  cases hd with
  | off => exact common_nil
  | call target session provider q r htarget hsession hauth hq hm =>
    obtain ⟨p, x⟩ := q
    cases hm with
    | send => exact common_singleton trivial
    | wait => exact common_nil
    | done pmk r hk => exact common_keyStart hk
    | fail => exact common_fail _ _

theorem common_planned {bss : Bss} {roaming : Bool} (hp : Planned c draws bss roaming r) :
    Common r.2 := by
  cases hp with
  | refused => exact common_fail _ _
  | stay => exact common_nil
  | enterprise => exact common_fail _ _
  | prompt => exact (common_disarm c).append (common_singleton trivial)
  | unstaged => exact common_fail _ _
  | sae credential choice provider q hchosen hstage hroaming hd =>
    exact (common_leaving _ _).append ((common_saeDriven hd).cons trivial)
  | associate => exact common_associateWith _ _ _

theorem common_onLease (event : LeaseEvent) : Common (c.onLease event).2 := by
  cases event with
  | acquired lease =>
    exact Common.cons ((common_enter c .connected).append (common_saveProfile _)) trivial
  | lost reason =>
    unfold onLease
    split_ifs
    · exact (common_enter _ _).append (common_singleton trivial)
    · exact common_nil
  | failed => exact common_fail _ _

/-- **What a poll asks for** is common; or it is the end of a scan, which has the results fetched; or it
is the handshake's. -/
theorem common_move (hm : Move c draws input r) :
    Common r.2 ∨
      (∃ wiphy ifindex, input = .wireless (.scanComplete wiphy ifindex) ∧
        r.2 = [.fetchScanResults c.device.ifindex]) ∨
      (∃ frame, input = .eapol frame ∧ c.Listening ∧ HandshakeMove c (.frame frame) r) ∨
      (input = .timer .handshakeRetry ∧ c.Listening ∧ HandshakeMove c .timeout r) := by
  cases hm with
  | fetch wiphy ifindex => exact .inr (.inl ⟨wiphy, ifindex, rfl, rfl⟩)
  | eapolKey frame eapol r hl hparse htype hm => exact .inr (.inr (.inl ⟨frame, rfl, hl, hm⟩))
  | handshakeRetry r hl hm => exact .inr (.inr (.inr ⟨rfl, hl, hm⟩))
  | ignore => exact .inl common_nil
  | connect ssid =>
    refine .inl (Common.append ?_ (common_startScan _))
    dsimp only
    split_ifs
    · exact common_nil
    · exact common_singleton trivial
  | autoconnect => exact .inl (common_startScan _)
  | secret => exact .inl common_nil
  | answer value target bss r htarget hpending hplanned => exact .inl (common_planned hplanned)
  | disconnect => exact .inl ((common_goIdle c).cons trivial)
  | noNetwork => exact .inl (common_fail _ _)
  | selected scan target bssid bss r hst hselection hfind hplanned =>
    exact .inl (common_planned hplanned)
  | surveyed => exact .inl common_nil
  | roam scan session target better bss r hst hsession htarget hroam hfind hplanned =>
    exact .inl (common_planned hplanned)
  | eapolEap frame eapol r hl hparse htype hd => exact .inl (common_dot1xDriven hd)
  | lease event => exact .inl (common_onLease event)
  | linkFailed => exact .inl (common_fail _ _)
  | joinedOpen => exact .inl (common_configured _)
  | joinedReady bssid session pmk r hst hsession hauth hk => exact .inl (common_keyStart hk)
  | joinedDot1x bssid session provider r hst hsession hauth hd =>
    exact .inl ((common_leaving _ _).append ((common_dot1xDriven hd).cons trivial))
  | joinedUnstaged => exact .inl (common_fail _ _)
  | saeFrame frame body r hst hbody hd => exact .inl (common_saeDriven hd)
  | saeTimeout r hst hd => exact .inl (common_saeDriven hd)
  | timedOut => exact .inl (common_fail _ _)
  | rescan => exact .inl (common_startScan _)

end Connection

end Caw
