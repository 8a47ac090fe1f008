import Caw.Core.Address
import Caw.Daemon.Engine

/-!
# What the computations of the engine touch

Most of what the engine does asks the system for something and arms or disarms a deadline. A relation
that permits these steps is kept by every computation made of them.

* `Daemon.Calls`: the steps such a computation is made of, where it leaves the probe routes and the
  profiles on disk alone, with `Calls.applyLease`, `Calls.installKeys`, …;
* `Daemon.Spares`: the steps of a DHCP exchange besides, with **`Spares.perform`**;
* `Daemon.Allows`: the same where it may ask for anything;
* `Permits`: and profiles that are taken up;
* `Quiet`, **`Calls.perform_quiet`**: eleven of the fifteen actions are made of these;
* `Exchanges`, `Admits`, `Speaks`: the steps of the other four, with **`Exchanges.perform`**,
  **`Admits.perform`**, **`Permits.perform`**;
* `keeps_performAll`, `keeps_performBestEffort`: and lists of actions.
-/

set_option autoImplicit false
set_option linter.unusedSectionVars false

namespace Caw

open Caw.Core

namespace Daemon

open Effect

variable {S : Platform} {E : System S}

/-- The operation leaves the probe routes and the profiles on disk alone. -/
def Op.isPlain : Op → Bool
  | .addDhcpProbeRoute _ | .delDhcpProbeRoute _ => false
  | .loadProfiles | .saveProfile _ | .deleteProfile _ => false
  | _ => true

/-- The relation permits the steps of a computation that asks for plain things, arms the deadlines of
the core, disarms any and closes the EAPOL socket. -/
structure Calls (R : Daemon S E → Daemon S E → Prop) : Prop where
  calls : ∀ d op, op.isPlain = true → R d { d.record (.call op (E.call op d.world).1.isOk) with
    world := (E.call op d.world).2 }
  arms : ∀ d id delay, R d { d with timers := d.timers.arm (.core id) delay d.now }
  disarms : ∀ d matching, (∀ key, matching key = true → key.isScan = false) →
    R d { d with timers := d.timers.cancelIf matching }
  eapol : ∀ d eapol, R d { d with eapol := eapol }

namespace Calls

variable {R : Daemon S E → Daemon S E → Prop} [IsPreorder (Daemon S E) R] (hR : Calls R)
include hR

theorem ask {op : Op} (hop : op.isPlain = true) : Keeps R (ask op : EngineM S E _) :=
  keeps_modifyGet fun d => hR.calls d op hop

theorem request {op : Op} (hop : op.isPlain = true) (describe : String → String) :
    Keeps R (request op describe : EngineM S E _) := by
  refine keeps_bind (hR.ask hop) fun x => ?_
  cases x with
  | ok reply => exact keeps_pure _
  | error e => exact keeps_throw _

theorem cancel {key : Key} (hkey : key.isScan = false) : Keeps R (cancel key : EngineM S E _) := by
  refine keeps_modify fun d => ?_
  rw [d.timers.cancel_eq]
  exact hR.disarms d _ fun k hk => by rwa [of_decide_eq_true hk]

theorem cancelCoreTimers : Keeps R (cancelCoreTimers : EngineM S E _) :=
  keeps_modify fun d => hR.disarms d _ fun key h => by cases key <;> trivial

theorem nlPort : Keeps R (nlPort : EngineM S E _) := by
  refine keeps_bind keeps_get fun d => ?_
  split_ifs
  · exact keeps_pure _
  · exact keeps_throw _

theorem ifindexFor (reason : String) : Keeps R (ifindexFor reason : EngineM S E _) := by
  refine keeps_bind keeps_get fun d => ?_
  split
  · exact keeps_pure _
  · exact keeps_throw _

theorem removeStale (ifindex : UInt32) (lease : Dhcp.Lease) (addresses : List Address) :
    Keeps R (removeStale ifindex lease addresses : EngineM S E _) := by
  induction addresses with
  | nil => exact keeps_pure _
  | cons address rest ih =>
    unfold Daemon.removeStale
    dsimp only
    split_ifs
    · exact keeps_bind (hR.ask rfl) fun _ => ih
    · exact ih

theorem applyLease (hdrop : Keeps R (dropProbeRoute : EngineM S E Unit)) (lease : Dhcp.Lease) :
    Keeps R (applyLease lease : EngineM S E _) := by
  have hfinish : Keeps R (do
      Daemon.dropProbeRoute
      let _ ← Daemon.ask (.writeResolvConf lease.dns) : EngineM S E _) :=
    keeps_bind hdrop fun _ => keeps_bind (hR.ask rfl) fun _ => keeps_pure _
  refine keeps_bind (hR.ifindexFor _) fun ifindex => keeps_bind keeps_get fun d => ?_
  dsimp only
  split_ifs
  · refine keeps_bind (hR.request rfl _) fun addresses =>
      keeps_bind (hR.removeStale ifindex lease addresses) fun _ =>
        keeps_bind (hR.request rfl _) fun _ => ?_
    split
    · exact hfinish
    · exact keeps_bind (hR.request rfl _) fun _ => hfinish
  · exact keeps_throw _

theorem installKeys (keys : KeyInstall) : Keeps R (installKeys keys : EngineM S E _) := by
  refine keeps_bind (hR.ifindexFor _) fun ifindex => keeps_bind hR.nlPort fun _ => ?_
  dsimp only
  split
  · exact keeps_bind (hR.request rfl _) fun _ => keeps_bind (hR.request rfl _) fun _ => keeps_pure _
  · exact keeps_bind (hR.request rfl _) fun _ => keeps_bind (hR.request rfl _) fun _ =>
      keeps_bind (hR.request rfl _) fun _ => keeps_pure _

theorem associate (req : AssocRequest) : Keeps R (associate req : EngineM S E _) := by
  have hrequest : Keeps R (do
      Daemon.nlPort
      if req.authenticated then
        let _ ← Daemon.request (.associate req) id
      else
        let _ ← Daemon.request (.connect req) id : EngineM S E _) := by
    refine keeps_bind hR.nlPort fun _ => ?_
    split_ifs
    · exact keeps_bind (hR.request rfl _) fun _ => keeps_pure _
    · exact keeps_bind (hR.request rfl _) fun _ => keeps_pure _
  unfold Daemon.associate
  cases req.offload.isSome with
  | true => exact keeps_bind (keeps_throw _) fun _ => hrequest
  | false => exact hrequest

theorem triggerScan (ifindex : UInt32) : Keeps R (triggerScan ifindex : EngineM S E _) := by
  refine keeps_bind hR.nlPort fun _ => keeps_bind (hR.ask rfl) fun x => ?_
  cases x with
  | ok => exact keeps_pure _
  | error e =>
    dsimp only
    split_ifs
    · exact keeps_pure _
    · exact keeps_throw _

theorem fetchScanResults (ifindex : UInt32) :
    Keeps R (fetchScanResults ifindex : EngineM S E _) :=
  keeps_bind hR.nlPort fun _ => keeps_bind (hR.request rfl _) fun _ => keeps_pure _

theorem disconnectLink (reason : UInt16) : Keeps R (disconnectLink reason : EngineM S E _) :=
  keeps_bind (hR.ifindexFor _) fun _ => keeps_bind hR.nlPort fun _ =>
    keeps_bind (hR.request rfl _) fun _ => keeps_pure _

theorem sendEapol (frame : Bytes) : Keeps R (sendEapol frame : EngineM S E _) := by
  refine keeps_bind keeps_get fun d => ?_
  dsimp only
  split_ifs
  · exact keeps_throw _
  · exact keeps_bind (hR.request rfl _) fun _ => keeps_pure _

theorem describe (ifindex : UInt32) : Keeps R (describe ifindex : EngineM S E _) := by
  refine keeps_bind hR.nlPort fun _ => keeps_bind (hR.request rfl _) fun interfaces => ?_
  dsimp only
  split
  · exact keeps_throw _
  · split
    · exact keeps_throw _
    · exact keeps_bind (hR.request rfl _) fun _ => keeps_pure _

end Calls

/-- The operation leaves the profiles on disk alone. -/
def Op.sparesProfiles : Op → Bool
  | .loadProfiles | .saveProfile _ | .deleteProfile _ => false
  | _ => true

theorem Op.spares_of_plain {op : Op} (h : op.isPlain = true) : op.sparesProfiles = true := by
  cases op <;> first | rfl | cases h

/-- The relation permits the steps of a computation that asks for things but the profiles on disk, arms
deadlines and closes the EAPOL socket. -/
structure Spares (R : Daemon S E → Daemon S E → Prop) : Prop where
  calls : ∀ d op, op.sparesProfiles = true →
    R d { d.record (.call op (E.call op d.world).1.isOk) with world := (E.call op d.world).2 }
  timers : ∀ d timers, d.timers.Sparing timers → R d { d with timers := timers }
  routes : ∀ d run, d.dhcp = some run → R d { d with dhcp := some { run with probeRoute := false } }
  eapol : ∀ d eapol, R d { d with eapol := eapol }

theorem Spares.toCalls {R : Daemon S E → Daemon S E → Prop} (hR : Spares R) : Calls R where
  calls d op h := hR.calls d op (Op.spares_of_plain h)
  arms d _ _ := hR.timers d _ (d.timers.sparing_arm rfl _ _)
  disarms d _ h := hR.timers d _ (d.timers.sparing_cancelIf h)
  eapol d eapol := hR.eapol d eapol

namespace Spares

variable {R : Daemon S E → Daemon S E → Prop} [IsPreorder (Daemon S E) R] (hR : Spares R)
include hR

theorem ask {op : Op} (hop : op.sparesProfiles = true) : Keeps R (ask op : EngineM S E _) :=
  keeps_modifyGet fun d => hR.calls d op hop

theorem request {op : Op} (hop : op.sparesProfiles = true) (describe : String → String) :
    Keeps R (request op describe : EngineM S E _) := by
  refine keeps_bind (hR.ask hop) fun x => ?_
  cases x with
  | ok reply => exact keeps_pure _
  | error e => exact keeps_throw _

theorem arm {key : Key} (hkey : key.isScan = false) (delay : ℕ) :
    Keeps R (arm key delay : EngineM S E _) :=
  keeps_modify fun d => hR.timers d _ (d.timers.sparing_arm hkey _ _)

theorem dropProbeRoute : Keeps R (dropProbeRoute : EngineM S E _) := by
  intro d r d' h
  rw [Daemon.dropProbeRoute, runs_get_bind] at h
  cases hrun : d.dhcp with
  | none =>
    rw [hrun] at h
    exact keeps_pure _ _ _ _ h
  | some run =>
    rw [hrun] at h
    dsimp only at h
    split_ifs at h
    · rw [runs_modify_bind] at h
      exact IsTrans.trans _ _ _ (hR.routes d run hrun)
        (keeps_bind (hR.ask rfl) (fun _ => keeps_pure _) _ _ _ h)
    · exact keeps_pure _ _ _ _ h

theorem probeRoutes (ifindex : UInt32) : Keeps R (probeRoutes ifindex : EngineM S E _) := by
  refine keeps_bind keeps_get fun d => ?_
  split_ifs
  · refine keeps_bind (hR.ask rfl) fun _ => keeps_bind (hR.ask rfl) fun x => ?_
    cases x with
    | ok => exact keeps_pure _
    | error => exact keeps_pure _
  · exact keeps_pure _

theorem performDhcp (actions : List Dhcp.Action) (out : Option LeaseEvent) :
    Keeps R (performDhcp actions out : EngineM S E _) := by
  induction actions generalizing out with
  | nil => exact keeps_pure _
  | cons action rest ih =>
    cases action with
    | broadcast data => exact keeps_bind (hR.ask rfl) fun _ => ih _
    | unicast addr data => exact keeps_bind (hR.ask rfl) fun _ => ih _
    | setTimer timer secs => exact keeps_bind (hR.arm rfl _) fun _ => ih _
    | configured lease => exact ih _
    | deconfigure reason => exact ih _
    | failed => exact ih _

section Exchange

variable (hdhcp : ∀ d run, R d { d with dhcp := run })
include hdhcp

theorem stopDhcp : Keeps R (stopDhcp : EngineM S E _) := by
  have hend : Keeps R (do
      modify fun d => { d with dhcp := none }
      Daemon.cancel (.dhcp .retransmit)
      Daemon.cancel (.dhcp .renew)
      Daemon.cancel (.dhcp .rebind)
      Daemon.cancel (.dhcp .expire) : EngineM S E _) :=
    keeps_bind (keeps_modify fun d => hdhcp d none) fun _ =>
      keeps_bind (hR.toCalls.cancel rfl) fun _ => keeps_bind (hR.toCalls.cancel rfl) fun _ =>
        keeps_bind (hR.toCalls.cancel rfl) fun _ => hR.toCalls.cancel rfl
  refine keeps_bind keeps_get fun d => ?_
  cases d.rtnl with
  | true => exact keeps_bind hR.dropProbeRoute fun _ => hend
  | false => exact hend

theorem driveDhcp (input : Dhcp.Input) : Keeps R (driveDhcp input : EngineM S E _) := by
  refine keeps_bind keeps_get fun d => ?_
  split
  · exact keeps_pure _
  · exact keeps_bind (keeps_modify fun d => hdhcp d _) fun _ => hR.performDhcp _ _

theorem startDhcp : Keeps R (startDhcp : EngineM S E _) := by
  refine keeps_bind (hR.toCalls.ifindexFor _) fun ifindex => keeps_bind keeps_get fun d => ?_
  split
  · exact keeps_throw _
  · refine keeps_bind (hR.stopDhcp hdhcp) fun _ => keeps_bind (hR.probeRoutes _) fun probeRoute =>
      keeps_bind (hR.request rfl _) fun _ => keeps_bind (hR.request rfl _) fun xid =>
        keeps_bind (hR.ask rfl) fun hostname => ?_
    exact keeps_bind (keeps_modify fun d => hdhcp d _) fun _ =>
      keeps_bind (hR.driveDhcp hdhcp _) fun _ => keeps_pure _

theorem failed {failure : Failure} (htell : Keeps R (tellFailed failure.text : EngineM S E _)) :
    Keeps R (failed failure : EngineM S E _) := by
  refine keeps_bind htell fun _ => ?_
  split_ifs
  · exact keeps_bind (keeps_modify fun d => hR.eapol d none) fun _ => hR.stopDhcp hdhcp
  · exact keeps_pure _

end Exchange

end Spares

theorem keeps_loadProfiles {R : Daemon S E → Daemon S E → Prop} [IsPreorder (Daemon S E) R]
    (h : Keeps R (ask .loadProfiles : EngineM S E _)) : Keeps R (loadProfiles : EngineM S E _) := by
  refine keeps_bind h fun x => ?_
  cases x with
  | ok => exact keeps_pure _
  | error => exact keeps_pure _

/-- The relation permits these steps, and to ask for anything. -/
structure Allows (R : Daemon S E → Daemon S E → Prop) : Prop where
  calls : ∀ d op, R d { d.record (.call op (E.call op d.world).1.isOk) with
    world := (E.call op d.world).2 }
  timers : ∀ d timers, d.timers.Sparing timers → R d { d with timers := timers }
  routes : ∀ d run, d.dhcp = some run → R d { d with dhcp := some { run with probeRoute := false } }
  eapol : ∀ d eapol, R d { d with eapol := eapol }

theorem Allows.toSpares {R : Daemon S E → Daemon S E → Prop} (hR : Allows R) : Spares R where
  calls d op _ := hR.calls d op
  timers := hR.timers
  routes := hR.routes
  eapol := hR.eapol

theorem Allows.toCalls {R : Daemon S E → Daemon S E → Prop} (hR : Allows R) : Calls R :=
  hR.toSpares.toCalls

namespace Allows

variable {R : Daemon S E → Daemon S E → Prop} [IsPreorder (Daemon S E) R] (hR : Allows R)
include hR

theorem ask (op : Op) : Keeps R (ask op : EngineM S E _) :=
  keeps_modifyGet fun d => hR.calls d op

theorem request (op : Op) (describe : String → String) :
    Keeps R (request op describe : EngineM S E _) := by
  refine keeps_bind (hR.ask op) fun x => ?_
  cases x with
  | ok reply => exact keeps_pure _
  | error e => exact keeps_throw _

theorem loadProfiles : Keeps R (loadProfiles : EngineM S E _) := keeps_loadProfiles (hR.ask _)

end Allows

/-- The relation permits, besides, a profile to be taken up. -/
structure Permits (R : Daemon S E → Daemon S E → Prop) : Prop extends Allows R where
  profiles : ∀ d profile, R d { d with core := d.core.map fun core => core.insertProfile profile }

theorem Permits.saveProfile {R : Daemon S E → Daemon S E → Prop} [IsPreorder (Daemon S E) R]
    (hR : Permits R) (profile : Profile) : Keeps R (saveProfile profile : EngineM S E _) :=
  keeps_bind (hR.request _ _) fun _ => keeps_modify fun d => hR.profiles d profile

/-! ## Actions -/

/-- The actions that tell a client nothing and leave the exchange alone. -/
def Quiet : Core.Action → Prop
  | .startDhcp | .requestSecret _ | .notify _ | .failed _ => False
  | _ => True

section Actions

variable {R : Daemon S E → Daemon S E → Prop} [IsPreorder (Daemon S E) R]

/-- **A quiet action** is made of permitted steps, given what becomes of the probe route and of a
profile to be saved. -/
theorem Calls.perform_quiet (hR : Calls R) {action : Core.Action}
    (hact : ∀ d, R d (d.record (.perform action))) (hquiet : Quiet action)
    (hdrop : Keeps R (dropProbeRoute : EngineM S E Unit))
    (hsave : ∀ profile, action = .saveProfile profile →
      Keeps R (saveProfile profile : EngineM S E _)) : Keeps R (perform action : EngineM S E _) := by
  refine keeps_bind (keeps_modify hact) fun _ => ?_
  cases action with
  | triggerScan ifindex => exact keeps_bind (hR.triggerScan _) fun _ => keeps_pure _
  | fetchScanResults ifindex => exact keeps_bind (hR.fetchScanResults _) fun _ => keeps_pure _
  | associate req => exact keeps_bind (hR.associate _) fun _ => keeps_pure _
  | authenticate req =>
    exact keeps_bind hR.nlPort fun _ => keeps_bind (hR.request rfl _) fun _ => keeps_pure _
  | disconnect reason => exact keeps_bind (hR.disconnectLink _) fun _ => keeps_pure _
  | sendEapol frame => exact keeps_bind (hR.sendEapol _) fun _ => keeps_pure _
  | installKeys keys => exact keeps_bind (hR.installKeys _) fun _ => keeps_pure _
  | applyLease lease => exact keeps_bind (hR.applyLease hdrop _) fun _ => keeps_pure _
  | setTimer id millis =>
    exact keeps_bind (keeps_modify fun d => hR.arms d id millis) fun _ => keeps_pure _
  | clearTimer id => exact keeps_bind (hR.cancel rfl) fun _ => keeps_pure _
  | saveProfile profile => exact keeps_bind (hsave _ rfl) fun _ => keeps_pure _
  | startDhcp => exact hquiet.elim
  | requestSecret prompt => exact hquiet.elim
  | notify state => exact hquiet.elim
  | failed failure => exact hquiet.elim

theorem Spares.perform_quiet (hR : Spares R) {action : Core.Action}
    (hact : ∀ d, R d (d.record (.perform action))) (hquiet : Quiet action)
    (hsave : ∀ profile, action = .saveProfile profile →
      Keeps R (saveProfile profile : EngineM S E _)) : Keeps R (perform action : EngineM S E _) :=
  hR.toCalls.perform_quiet hact hquiet hR.dropProbeRoute hsave

theorem Permits.perform_quiet (hR : Permits R) {action : Core.Action}
    (hact : ∀ d, R d (d.record (.perform action))) (hquiet : Quiet action) :
    Keeps R (perform action : EngineM S E _) :=
  hR.toSpares.perform_quiet hact hquiet fun profile _ => hR.saveProfile profile

/-- **An action**, given what becomes of the exchange, of the messages to clients and of the profiles. -/
theorem Spares.perform (hR : Spares R) (hdhcp : ∀ d run, R d { d with dhcp := run })
    {action : Core.Action} (hact : ∀ d, R d (d.record (.perform action)))
    (hnotify : ∀ state, action = .notify state → Keeps R (notify state : EngineM S E _))
    (htell : ∀ failure, action = .failed failure →
      Keeps R (tellFailed failure.text : EngineM S E _))
    (hsecret : ∀ prompt, action = .requestSecret prompt →
      Keeps R (requestSecret prompt : EngineM S E _))
    (hsave : ∀ profile, action = .saveProfile profile →
      Keeps R (saveProfile profile : EngineM S E _)) : Keeps R (perform action : EngineM S E _) := by
  by_cases hquiet : Quiet action
  · exact hR.perform_quiet hact hquiet hsave
  refine keeps_bind (keeps_modify hact) fun _ => ?_
  cases action with
  | startDhcp => exact hR.startDhcp hdhcp
  | requestSecret prompt => exact keeps_bind (hsecret _ rfl) fun _ => keeps_pure _
  | notify state => exact keeps_bind (hnotify _ rfl) fun _ => keeps_pure _
  | failed failure => exact keeps_bind (hR.failed hdhcp (htell _ rfl)) fun _ => keeps_pure _
  | _ => exact absurd trivial hquiet

/-- The relation permits, besides, an exchange to be replaced. -/
structure Exchanges (R : Daemon S E → Daemon S E → Prop) : Prop extends Allows R where
  dhcp : ∀ d run, R d { d with dhcp := run }

namespace Exchanges

variable (hR : Exchanges R)
include hR

theorem stopDhcp : Keeps R (stopDhcp : EngineM S E _) := hR.toSpares.stopDhcp hR.dhcp

theorem driveDhcp (input : Dhcp.Input) : Keeps R (driveDhcp input : EngineM S E _) :=
  hR.toSpares.driveDhcp hR.dhcp input

theorem startDhcp : Keeps R (startDhcp : EngineM S E _) := hR.toSpares.startDhcp hR.dhcp

/-- **An action**, given what becomes of the messages to clients and of the profiles. -/
theorem perform {action : Core.Action} (hact : ∀ d, R d (d.record (.perform action)))
    (hnotify : ∀ state, action = .notify state → Keeps R (notify state : EngineM S E _))
    (htell : ∀ failure, action = .failed failure →
      Keeps R (tellFailed failure.text : EngineM S E _))
    (hsecret : ∀ prompt, action = .requestSecret prompt →
      Keeps R (requestSecret prompt : EngineM S E _))
    (hsave : ∀ profile, action = .saveProfile profile →
      Keeps R (saveProfile profile : EngineM S E _)) : Keeps R (perform action : EngineM S E _) :=
  hR.toSpares.perform hR.dhcp hact hnotify htell hsecret hsave

end Exchanges

/-- The relation permits all of this. -/
structure Admits (R : Daemon S E → Daemon S E → Prop) : Prop extends Permits R, Exchanges R

/-- **An action**, given what becomes of the messages to clients. -/
theorem Admits.perform (hR : Admits R) {action : Core.Action}
    (hact : ∀ d, R d (d.record (.perform action)))
    (hnotify : ∀ state, action = .notify state → Keeps R (notify state : EngineM S E _))
    (htell : ∀ failure, action = .failed failure →
      Keeps R (tellFailed failure.text : EngineM S E _))
    (hsecret : ∀ prompt, action = .requestSecret prompt →
      Keeps R (requestSecret prompt : EngineM S E _)) : Keeps R (perform action : EngineM S E _) :=
  hR.toExchanges.perform hact hnotify htell hsecret fun profile _ => hR.saveProfile profile

/-- The relation permits what a client is told. -/
structure Tells (R : Daemon S E → Daemon S E → Prop) : Prop where
  sends : ∀ d client message, R d (d.record (.send client message))
  unwatched : ∀ d, R d { d with watcher := none }

namespace Tells

variable (hR : Tells R)
include hR

theorem send (client : ClientId) (message : Message) :
    Keeps R (send client message : EngineM S E _) :=
  keeps_modify fun d => hR.sends d client message

theorem notify (state : State) : Keeps R (notify state : EngineM S E _) := by
  refine keeps_bind keeps_get fun d => ?_
  cases d.watcher with
  | none => exact keeps_pure _
  | some client =>
    have hsettle : Keeps R (if state = .connected ∨ state = .idle then do
        Daemon.send client .ok
        modify fun d => { d with watcher := none }
      else pure () : EngineM S E _) := by
      split_ifs
      · exact keeps_bind (hR.send _ _) fun _ => keeps_modify hR.unwatched
      · exact keeps_pure _
    dsimp only
    cases progress d.bssid state with
    | none => exact hsettle
    | some message => exact keeps_bind (hR.send _ _) fun _ => hsettle

end Tells

/-- The relation permits, besides, what is remembered of a prompt. -/
structure Speaks (R : Daemon S E → Daemon S E → Prop) : Prop extends Tells R where
  prompts : ∀ d token pending, R d { d with nextToken := token, pendingSecret := pending }

namespace Speaks

variable (hR : Speaks R)
include hR

theorem tellFailed (reason : String) : Keeps R (tellFailed reason : EngineM S E _) := by
  have hforget : Keeps R (modify fun d => { d with pendingSecret := none } : EngineM S E _) :=
    keeps_modify fun d => hR.prompts d d.nextToken none
  refine keeps_bind keeps_get fun d => ?_
  cases d.watcher with
  | none => exact hforget
  | some client =>
    exact keeps_bind (keeps_modify hR.unwatched) fun _ => keeps_bind (hR.send _ _) fun _ =>
      keeps_bind (hR.send _ _) fun _ => hforget

theorem requestSecret (prompt : String) : Keeps R (requestSecret prompt : EngineM S E _) := by
  refine keeps_bind keeps_get fun d => ?_
  cases d.watcher with
  | none => exact keeps_throw _
  | some client =>
    exact keeps_bind (keeps_modify fun d' => hR.prompts d' _ _) fun _ => hR.send _ _

end Speaks

/-- **An action of a relation that permits everything but itself.** -/
theorem Admits.perform_of_speaks (hR : Admits R) (hS : Speaks R) {action : Core.Action}
    (hact : ∀ d, R d (d.record (.perform action))) :
    Keeps R (Daemon.perform action : EngineM S E _) :=
  hR.perform hact (fun _ _ => hS.notify _) (fun _ _ => hS.tellFailed _) fun _ _ =>
    hS.requestSecret _

/-- The actions that touch the exchange. -/
def Addresses : Core.Action → Prop
  | .startDhcp | .failed _ => True
  | _ => False

/-- **An action that leaves the exchange alone.** -/
theorem Permits.perform (hR : Permits R) (hS : Speaks R) {action : Core.Action}
    (hact : ∀ d, R d (d.record (.perform action))) (h : ¬ Addresses action) :
    Keeps R (perform action : EngineM S E _) := by
  by_cases hquiet : Quiet action
  · exact hR.perform_quiet hact hquiet
  refine keeps_bind (keeps_modify hact) fun _ => ?_
  cases action with
  | requestSecret prompt => exact keeps_bind (hS.requestSecret _) fun _ => keeps_pure _
  | notify state => exact keeps_bind (hS.notify _) fun _ => keeps_pure _
  | startDhcp => exact absurd trivial h
  | failed failure => exact absurd trivial h
  | _ => exact absurd trivial hquiet

theorem keeps_performAll {actions : List Core.Action}
    (h : ∀ action ∈ actions, Keeps R (perform action : EngineM S E _)) :
    Keeps R (performAll actions : EngineM S E _) := by
  induction actions with
  | nil => exact keeps_pure _
  | cons action rest ih =>
    refine keeps_bind (h action List.mem_cons_self) fun _ => ?_
    exact keeps_bind (ih fun a ha => h a (List.mem_cons_of_mem _ ha)) fun _ => keeps_pure _

theorem keeps_performBestEffort {actions : List Core.Action}
    (h : ∀ action ∈ actions, Keeps R (perform action : EngineM S E _)) :
    Keeps R (performBestEffort actions : EngineM S E _) := by
  induction actions with
  | nil => exact keeps_pure _
  | cons action rest ih =>
    exact keeps_bind (keeps_attempt (h action List.mem_cons_self)) fun _ =>
      ih fun a ha => h a (List.mem_cons_of_mem _ ha)

end Actions

end Daemon

end Caw
