import Caw.Core.Invariant

/-!
# Late inputs

The lease machine, the kernel and the timers outlive the attempt that started them. What they say
late is to change nothing.

* `Input.Late`, `Input.Unguarded`: the inputs that come late, and the lease events no state refuses;
* `Connection.Ignores`: a poll that changes nothing and asks for nothing;
* `poll_late`: what is late and guarded is ignored;
* **`late_ignored`**: in every reachable state, exactly what is late and guarded is ignored, and
  without a command nothing but an unguarded event leaves the idle state.
-/

set_option autoImplicit false

namespace Caw

open Caw.Core

variable {S : Platform}

namespace Core

/-- An input of an attempt that is over, or has not come to it yet. -/
def Input.Late (state : State) : Input → Prop
  | .command _ => False
  | .lease _ => state ≠ .configuring ∧ state ≠ .connected
  | .wireless _ | .scanResults _ | .eapol _ | .timer _ => state = .idle

/-- The lease events that are acted on in every state. -/
def Input.Unguarded : Input → Prop
  | .lease (.acquired _) | .lease .failed => True
  | _ => False

end Core

namespace Connection

variable (c : Connection S) (draws : Draws S)

/-- The input changes nothing and asks for nothing. -/
def Ignores (input : Input) : Prop :=
  ∃ c', c.poll draws input = some (c', []) ∧ c'.state = c.state ∧ c'.target = c.target ∧
    c'.session = c.session ∧ c'.attempts = c.attempts ∧ c'.profiles = c.profiles

variable {c} {draws} {input : Input}

theorem ignores_of_poll (h : c.poll draws input = some (c, [])) : c.Ignores draws input :=
  ⟨c, h, rfl, rfl, rfl, rfl, rfl⟩

theorem not_ignores_of_mem {r : Connection S × List Action} (hpoll : c.poll draws input = some r)
    {action : Action} (hmem : action ∈ r.2) : ¬ c.Ignores draws input := by
  rintro ⟨c', h, -⟩
  rw [hpoll] at h
  cases h
  cases hmem

/-! ## What the idle state refuses -/

theorem not_associated_of_idle (h : c.state = .idle) : c.associated = false := by
  simp [associated, h]

theorem onWireless_idle (h : c.state = .idle) (event : Nl80211.Event) :
    c.onWireless draws event = some (c, []) := by
  cases event with
  | disconnected reason byAp => simp [onWireless, not_associated_of_idle h]
  | _ => simp [onWireless, h]

theorem onTimer_idle (h : c.state = .idle) (id : TimerId) : c.onTimer id = some (c, []) := by
  unfold onTimer
  rw [h]
  cases id <;> rfl

theorem onEapol_idle (h : c.state = .idle) (frame : Bytes) :
    c.onEapol draws frame = some (c, []) := by
  simp [onEapol, h]

theorem onScanResults_idle (h : c.state = .idle) (scan : List Bss) :
    c.onScanResults draws scan = some (c, []) := by
  simp [onScanResults, h]

theorem onLease_lost (h : c.state ≠ .connected) (reason : Dhcp.Reason) :
    c.onLease (.lost reason) = (c, []) := by
  simp [onLease, h]

/-- **What is late and guarded changes nothing.** -/
theorem poll_late (hlate : input.Late c.state) (hguarded : ¬ input.Unguarded) :
    c.poll draws input = some (c, []) := by
  cases input with
  | command command => cases hlate
  | wireless event => exact onWireless_idle hlate event
  | scanResults scan => exact onScanResults_idle hlate scan
  | eapol frame => exact onEapol_idle hlate frame
  | timer id => exact onTimer_idle hlate id
  | lease event =>
    cases event with
    | acquired lease => exact absurd trivial hguarded
    | lost reason => exact congrArg some (onLease_lost hlate.2 reason)
    | failed => exact absurd trivial hguarded

/-! ## What no state refuses -/

theorem applyLease_mem_onLease (lease : Dhcp.Lease) :
    Action.applyLease lease ∈ (c.onLease (.acquired lease)).2 :=
  List.mem_cons_self

theorem exists_mem_fail (failure : Failure) : ∃ action, action ∈ (c.fail failure).2 := by
  unfold fail
  simp only [andThen_snd]
  split_ifs
  all_goals
    try exact ⟨_, List.mem_cons_self⟩
  · refine ⟨.notify .reconnecting, ?_⟩
    simp [backOff]
  · refine ⟨.failed failure, ?_⟩
    simp [giveUp]

theorem unguarded_acts (h : input.Unguarded) : ¬ c.Ignores draws input := by
  cases input with
  | lease event =>
    cases event with
    | acquired lease => exact not_ignores_of_mem rfl (applyLease_mem_onLease lease)
    | lost reason => cases h
    | failed =>
      obtain ⟨action, hmem⟩ := exists_mem_fail (c := c) .dhcp
      exact not_ignores_of_mem rfl hmem
  | _ => cases h

/-! ## Runs -/

/-- Without commands and unguarded events, an idle connection stays as it is, whatever is polled. -/
theorem idle_run {calls : List (Call S)} (hidle : c.state = .idle)
    (hcalls : ∀ call ∈ calls, ∃ draws input, call = .poll draws input ∧
      (∀ command, input ≠ .command command) ∧ ¬ input.Unguarded) :
    Machine.exec step c calls = c ∧ ∀ e ∈ Machine.log step c calls, e.output = [] := by
  induction calls with
  | nil => exact ⟨rfl, by simp [Machine.log]⟩
  | cons call calls ih =>
    obtain ⟨draws, input, rfl, hcommand, hguarded⟩ := hcalls call List.mem_cons_self
    have hlate : input.Late c.state := by
      cases input with
      | command command => exact absurd rfl (hcommand command)
      | lease event => rw [hidle]; exact ⟨by rintro ⟨⟩, by rintro ⟨⟩⟩
      | _ => exact hidle
    have hstep : c.step (.poll draws input) = (c, []) := by
      change (c.poll draws input).getD (c, []) = (c, [])
      rw [poll_late hlate hguarded, Option.getD_some]
    have hrest := ih fun call hcall => hcalls call (List.mem_cons_of_mem _ hcall)
    rw [Machine.exec_cons_of_eq hstep, Machine.log_cons_of_eq hstep]
    exact ⟨hrest.1, List.forall_mem_cons.mpr ⟨rfl, hrest.2⟩⟩

/-- **Late inputs.** In every reachable state what is late is ignored exactly when it is guarded; and
an idle connection stays as it is until a command or an unguarded event. -/
theorem late_ignored (device : Device) (profiles : List Profile) :
    (∀ c : Connection S, Reachable device profiles c → ∀ draws input, input.Late c.state →
      (c.Ignores draws input ↔ ¬ input.Unguarded)) ∧
    ∀ c : Connection S, Reachable device profiles c → c.state = .idle → ∀ calls : List (Call S),
      (∀ call ∈ calls, ∃ draws input, call = .poll draws input ∧
        (∀ command, input ≠ .command command) ∧ ¬ input.Unguarded) →
      Machine.exec step c calls = c ∧ ∀ e ∈ Machine.log step c calls, e.output = [] := by
  refine ⟨fun c _ draws input hlate => ⟨fun h hun => unguarded_acts hun h, fun h => ?_⟩,
    fun c _ hidle calls hcalls => idle_run hidle hcalls⟩
  exact ignores_of_poll (poll_late hlate h)

/-! ### A lease of an earlier attempt -/

/-- A radio that offloads nothing. -/
def sampleDevice : Device where
  ifindex := 3
  mac := .zero 6
  caps := { offloads4wayPsk := false, offloads4way1x := false, offloadsSae := false }

/-- A lease without a router. -/
def sampleLease : Dhcp.Lease where
  addr := .zero 4
  prefixLen := 24
  gateway := none
  dns := []
  server := .zero 4
  leaseSecs := 3600
  renewSecs := 1800
  rebindSecs := 3150

/-- A connection that has just been told to join a network, and is scanning for it. -/
def sampleScanning : Connection .sample :=
  Machine.exec step (new sampleDevice []) [.poll .sample (.command (.connect [110]))]

/-- While it scans, a lease makes it report success and a failed lease ends it. -/
theorem late_lease_acts :
    Reachable sampleDevice [] sampleScanning ∧ sampleScanning.state = .scanning ∧
      (sampleScanning.poll .sample (.lease (.acquired sampleLease))).map
          (fun r => (r.1.state, r.2)) =
        some (.connected, [.applyLease sampleLease, .clearTimer .scanTimeout, .notify .connected]) ∧
      (sampleScanning.poll .sample (.lease .failed)).map (fun r => (r.1.state, r.1.target, r.2)) =
        some (.idle, none, [.clearTimer .scanTimeout, .failed .dhcp]) :=
  ⟨⟨_, rfl⟩, rfl, rfl, rfl⟩

/-- The user gives up while the connection scans. -/
def sampleLeft : Connection .sample :=
  Machine.exec step (new sampleDevice [])
    [.poll .sample (.command (.connect [110])), .poll .sample (.command .disconnect)]

/-- What the attempt given up had under way, as it comes in. -/
def sampleStragglers : List (Call .sample) :=
  [.poll .sample (.scanResults []), .poll .sample (.wireless (.connected none .success)),
    .poll .sample (.eapol [2, 3, 0, 0]), .poll .sample (.lease (.lost .expired)),
    .poll .sample (.timer .scanTimeout)]

/-- The law of late inputs at a lost lease while scanning, and at all that comes in once the attempt
is given up. -/
theorem late_ignored_sample :
    sampleScanning.Ignores .sample (.lease (.lost .expired)) ∧ sampleLeft.state = .idle ∧
      Machine.exec step sampleLeft sampleStragglers = sampleLeft ∧
      ∀ e ∈ Machine.log step sampleLeft sampleStragglers, e.output = [] := by
  obtain ⟨hlate, hidle⟩ := late_ignored (S := .sample) sampleDevice []
  refine ⟨(hlate sampleScanning ⟨_, rfl⟩ .sample (.lease (.lost .expired)) ⟨nofun, nofun⟩).mpr id, rfl,
    hidle sampleLeft ⟨_, rfl⟩ rfl sampleStragglers ?_⟩
  intro call hcall
  simp only [sampleStragglers, List.mem_cons, List.not_mem_nil, or_false] at hcall
  rcases hcall with rfl | rfl | rfl | rfl | rfl
  all_goals exact ⟨_, _, rfl, nofun, id⟩

end Connection

end Caw
