import Caw.Daemon.Abort
import Caw.Daemon.History

/-!
# What an exchange leaves on the interface

An exchange has timers, and a route that lets its first messages through. Both are its own: when there
is no exchange there are none.

* `Daemon.Routed`, `Daemon.Left`: a route that was put in and not asked away since;
* `Daemon.Accounted`: the exchange accounts for its timers and its route;
* `stopDhcp_clean`: the end of an exchange takes them away;
* `Daemon.Opened`: no route is put in for an exchange that then cannot be opened;
* `Daemon.Tidy`, **`conducts_tidy`**: where that is so, no event leaves anything unaccounted for.
-/

set_option autoImplicit false

namespace Caw

open Caw.Core

namespace Daemon

open Effect
open Machine (Latest latest_concat not_latest_nil)

variable {S : Platform} {E : System S} {d d' : Daemon S E}

/-! ## Routes -/

/-- What is done about the probe route of an interface: it is put in, or it is asked away. A removal
that the kernel refuses is no more than a line in the log. -/
inductive Routed (ifindex : UInt32) : Done → Bool → Prop
  | added : Routed ifindex (.call (.addDhcpProbeRoute ifindex) true) true
  | removed (ok : Bool) : Routed ifindex (.call (.delDhcpProbeRoute ifindex) ok) false

/-- A probe route is left on the interface: the last that was done about it is to put it in. -/
def Left (ifindex : UInt32) (done : List Done) : Prop := Latest (Routed ifindex) done true

/-- The step has nothing to do with a probe route. -/
def Done.unrouted : Done → Bool
  | .call (.addDhcpProbeRoute _) ok => !ok
  | .call (.delDhcpProbeRoute _) _ => false
  | _ => true

theorem Done.not_routed {done : Done} (h : done.unrouted = true) (ifindex : UInt32) (b : Bool) :
    ¬ Routed ifindex done b := by
  rintro ⟨⟩ <;> cases h

theorem unrouted_call {op : Op} (h : op.isPlain = true) (ok : Bool) :
    (Done.call op ok).unrouted = true := by
  cases op <;> first | rfl | cases h

theorem left_append {done more : List Done} (h : ∀ x ∈ more, x.unrouted = true) (ifindex : UInt32) :
    Left ifindex (done ++ more) ↔ Left ifindex done := by
  induction more using List.reverseRecOn with
  | nil => rw [List.append_nil]
  | append_singleton more x ih =>
    have hx : ∀ b, ¬ Routed ifindex x b := x.not_routed (h x (by simp)) ifindex
    rw [← List.append_assoc, Left, latest_concat, ← Left, ih fun y hy => h y (by simp [hy])]
    constructor
    · rintro (hrouted | ⟨-, hleft⟩)
      · exact absurd hrouted (hx true)
      · exact hleft
    · exact fun hleft => .inr ⟨hx, hleft⟩

theorem left_added {done : List Done} {ifindex i : UInt32}
    (h : Left i (done ++ [.call (.addDhcpProbeRoute ifindex) true])) : i = ifindex ∨ Left i done := by
  rcases (latest_concat _ _ _).mp h with hrouted | ⟨-, hleft⟩
  · cases hrouted
    exact .inl rfl
  · exact .inr hleft

theorem left_removed {done : List Done} {ifindex i : UInt32} {ok : Bool}
    (h : Left i (done ++ [.call (.delDhcpProbeRoute ifindex) ok])) : i ≠ ifindex ∧ Left i done := by
  rcases (latest_concat _ _ _).mp h with hrouted | ⟨hnone, hleft⟩
  · cases hrouted
  · refine ⟨?_, hleft⟩
    rintro rfl
    exact hnone false (.removed ok)

/-! ## Accounts -/

/-- The exchange accounts for its timers, and for the route left on its interface. -/
structure Accounted (d : Daemon S E) : Prop where
  timers : d.dhcp = none → ∀ e ∈ d.timers.entries, e.1.isDhcp = false
  routes : ∀ ifindex, Left ifindex d.journal → d.rtnl = true ∧
    ∃ run, d.dhcp = some run ∧ run.probeRoute = true ∧ run.ifindex = ifindex

/-- **Without an exchange** nothing is left. -/
theorem Accounted.not_left (h : d.Accounted) (hdhcp : d.dhcp = none) (ifindex : UInt32) :
    ¬ Left ifindex d.journal := by
  intro hleft
  obtain ⟨-, run, hrun, -⟩ := h.routes ifindex hleft
  cases hdhcp.symm.trans hrun

/-- No route is put in for an exchange that then cannot be opened. -/
def Opened (done : List Done) : Prop := ∀ ifindex, .call (.addDhcpProbeRoute ifindex) true ∈ done →
  .call .openDhcp false ∉ done ∧ .call .newXid false ∉ done

theorem Opened.sublist {done more : List Done} (h : Opened more) (hsub : ∀ x ∈ done, x ∈ more) :
    Opened done := by
  intro ifindex hmem
  obtain ⟨hopen, hxid⟩ := h ifindex (hsub _ hmem)
  exact ⟨fun h => hopen (hsub _ h), fun h => hxid (hsub _ h)⟩

/-- What is done leaves nothing unaccounted for. -/
def Tidy (d d' : Daemon S E) : Prop := ∃ more, d'.journal = d.journal ++ more ∧
  (Opened more → d.Accounted → d'.Accounted)

instance : IsPreorder (Daemon S E) Tidy where
  refl d := ⟨[], by rw [List.append_nil], fun _ h => h⟩
  trans := by
    rintro d d₁ d' ⟨more, hmore, h⟩ ⟨more', hmore', h'⟩
    refine ⟨more ++ more', by rw [hmore', hmore, List.append_assoc], fun hopened hd => ?_⟩
    refine h' (hopened.sublist fun x hx => List.mem_append_right _ hx) (h ?_ hd)
    exact hopened.sublist fun x hx => List.mem_append_left _ hx

theorem tidy_of {more : List Done} (hjournal : d'.journal = d.journal ++ more)
    (hmore : ∀ x ∈ more, x.unrouted = true) (hdhcp : d'.dhcp = d.dhcp) (hrtnl : d'.rtnl = d.rtnl)
    (htimers : d.dhcp = none → (∀ e ∈ d.timers.entries, e.1.isDhcp = false) →
      ∀ e ∈ d'.timers.entries, e.1.isDhcp = false) : Tidy d d' := by
  refine ⟨more, hjournal, fun _ hd => ⟨fun hnone => ?_, fun ifindex hleft => ?_⟩⟩
  · rw [hdhcp] at hnone
    exact htimers hnone (hd.timers hnone)
  · rw [hjournal, left_append hmore] at hleft
    rw [hdhcp, hrtnl]
    exact hd.routes ifindex hleft

theorem tidy_done {done : Done} (hjournal : d'.journal = d.journal ++ [done])
    (hdone : done.unrouted = true) (hdhcp : d'.dhcp = d.dhcp) (hrtnl : d'.rtnl = d.rtnl)
    (htimers : d'.timers = d.timers) : Tidy d d' := by
  refine tidy_of hjournal (fun x hx => ?_) hdhcp hrtnl fun _ h => htimers ▸ h
  rw [List.mem_singleton.mp hx]
  exact hdone

theorem tidy_same (hjournal : d'.journal = d.journal) (hdhcp : d'.dhcp = d.dhcp)
    (hrtnl : d'.rtnl = d.rtnl) (htimers : d'.timers = d.timers) : Tidy d d' := by
  have hempty : d'.journal = d.journal ++ [] := by rw [hjournal, List.append_nil]
  exact tidy_of hempty (fun x hx => absurd hx List.not_mem_nil) hdhcp hrtnl fun _ h => htimers ▸ h

theorem tidy_ask {op : Op} (h : ∀ ok, (Done.call op ok).unrouted = true) :
    Keeps Tidy (ask op : EngineM S E _) :=
  keeps_modifyGet fun _ => tidy_done rfl (h _) rfl rfl rfl

theorem tidy_request {op : Op} (h : ∀ ok, (Done.call op ok).unrouted = true)
    (describe : String → String) : Keeps Tidy (request op describe : EngineM S E _) := by
  refine keeps_bind (tidy_ask h) fun x => ?_
  cases x with
  | ok reply => exact keeps_pure _
  | error e => exact keeps_throw _

theorem Timers.mem_arm {t : Timers} {key : Key} {delay now : ℕ} {e : Key × ℕ}
    (h : e ∈ (t.arm key delay now).entries) : e ∈ t.entries ∨ e.1 = key := by
  unfold arm at h
  split_ifs at h
  · obtain ⟨e', he', rfl⟩ := List.mem_map.mp h
    split_ifs
    · exact .inr rfl
    · exact .inl he'
  · rcases List.mem_append.mp h with h | h
    · exact .inl h
    · rw [List.mem_singleton.mp h]
      exact .inr rfl

/-! ## The end of an exchange -/

theorem tidy_dropProbeRoute : Keeps Tidy (dropProbeRoute : EngineM S E Unit) := by
  intro d r d' h
  rcases runs_dropProbeRoute h with ⟨rfl, -⟩ | ⟨run, hrun, -, rfl⟩
  · exact refl _
  · refine ⟨_, rfl, fun _ hd => ⟨nofun, fun i hleft => ?_⟩⟩
    obtain ⟨hne, hleft⟩ := left_removed hleft
    obtain ⟨-, run', hrun', -, rfl⟩ := hd.routes i hleft
    cases hrun.symm.trans hrun'
    exact absurd rfl hne

theorem not_left_dropProbeRoute {r : Except String Unit} (hd : d.Accounted)
    (h : Runs dropProbeRoute d r d') (ifindex : UInt32) : ¬ Left ifindex d'.journal := by
  intro hleft
  rcases runs_dropProbeRoute h with ⟨rfl, hnone⟩ | ⟨run, hrun, -, rfl⟩
  · obtain ⟨-, run, hrun, hroute, -⟩ := hd.routes ifindex hleft
    rw [hnone run hrun] at hroute
    cases hroute
  · obtain ⟨hne, hleft⟩ := left_removed hleft
    obtain ⟨-, run', hrun', -, rfl⟩ := hd.routes ifindex hleft
    cases hrun.symm.trans hrun'
    exact hne rfl

/-- **The end of an exchange** leaves nothing of it. -/
theorem stopDhcp_clean : Keeps (fun d d' => Tidy d d' ∧ d'.dhcp = none)
    (stopDhcp : EngineM S E Unit) := by
  intro d r d' h
  obtain ⟨d₁, hdrop, hsame, rfl⟩ := runs_stopDhcp_drop h
  have hkept : ∀ e ∈ (d₁.timers.cancelIf Key.isDhcp).entries, e.1.isDhcp = false := by
    intro e he
    simpa using (List.mem_filter.mp he).2
  refine ⟨?_, rfl⟩
  cases hrtnl : d.rtnl with
  | false =>
    rw [hsame hrtnl] at hkept ⊢
    refine ⟨[], by rw [List.append_nil], fun _ hd => ⟨fun _ => hkept, fun i hleft => ?_⟩⟩
    rw [(hd.routes i hleft).1] at hrtnl
    cases hrtnl
  | true =>
    obtain ⟨r₁, hrun⟩ := hdrop hrtnl
    obtain ⟨more, hmore, -⟩ := tidy_dropProbeRoute _ _ _ hrun
    exact ⟨more, hmore, fun _ hd =>
      ⟨fun _ => hkept, fun i hleft => absurd hleft (not_left_dropProbeRoute hd hrun i)⟩⟩

theorem tidy_stopDhcp : Keeps Tidy (stopDhcp : EngineM S E Unit) :=
  stopDhcp_clean.mono fun _ _ h => h.1

/-! ## The exchange at work -/

/-- An exchange that is under way arms what timers it likes. -/
def Working (d d' : Daemon S E) : Prop := d.dhcp.isSome → d'.dhcp.isSome ∧ Tidy d d'

instance : IsPreorder (Daemon S E) Working where
  refl d h := ⟨h, refl d⟩
  trans _ _ _ h h' hd := ⟨(h' (h hd).1).1, IsTrans.trans _ _ _ (h hd).2 (h' (h hd).1).2⟩

theorem working_ask {op : Op} (h : ∀ ok, (Done.call op ok).unrouted = true) :
    Keeps Working (ask op : EngineM S E _) :=
  keeps_modifyGet fun _ hd => ⟨hd, tidy_done rfl (h _) rfl rfl rfl⟩

theorem working_performDhcp (actions : List Dhcp.Action) (out : Option LeaseEvent) :
    Keeps Working (performDhcp actions out : EngineM S E _) := by
  induction actions generalizing out with
  | nil => exact keeps_pure _
  | cons action rest ih =>
    cases action with
    | broadcast data => exact keeps_bind (working_ask fun _ => rfl) fun _ => ih _
    | unicast addr data => exact keeps_bind (working_ask fun _ => rfl) fun _ => ih _
    | setTimer timer secs =>
      refine keeps_bind (keeps_modify fun d hd => ⟨hd, ?_⟩) fun _ => ih _
      obtain ⟨run, hrun⟩ := Option.isSome_iff_exists.mp hd
      refine ⟨[], (List.append_nil _).symm, fun _ haccounted => ⟨fun hnone => ?_, haccounted.routes⟩⟩
      cases hrun.symm.trans hnone
    | configured lease => exact ih _
    | deconfigure reason => exact ih _
    | failed => exact ih _

theorem tidy_driveDhcp (input : Dhcp.Input) : Keeps Tidy (driveDhcp input : EngineM S E _) := by
  intro d r d' h
  rw [driveDhcp, runs_get_bind] at h
  cases hrun : d.dhcp with
  | none =>
    rw [hrun] at h
    obtain ⟨-, rfl⟩ := runs_pure.mp h
    exact refl _
  | some run =>
    rw [hrun] at h
    dsimp only at h
    rw [runs_modify_bind] at h
    have hmachine :
        Tidy d { d with dhcp := some { run with machine := (run.machine.poll input).1 } } := by
      refine ⟨[], (List.append_nil _).symm, fun _ hd => ⟨nofun, fun ifindex hleft => ?_⟩⟩
      obtain ⟨hrtnl, run', hrun', hroute, hifindex⟩ := hd.routes ifindex hleft
      cases hrun.symm.trans hrun'
      exact ⟨hrtnl, _, rfl, hroute, hifindex⟩
    exact IsTrans.trans _ _ _ hmachine (working_performDhcp _ _ _ _ _ h rfl).2

/-! ## A fresh exchange -/

/-- What is put in for an exchange that is about to be opened. -/
structure PutIn (ifindex : UInt32) (added : Bool) (d d' : Daemon S E) (more : List Done) : Prop where
  journal : d'.journal = d.journal ++ more
  dhcp : d'.dhcp = d.dhcp
  timers : d'.timers = d.timers
  rtnl : d'.rtnl = d.rtnl
  left : ∀ i, Left i (d.journal ++ more) → (i = ifindex ∧ added = true) ∨ Left i d.journal
  added : added = true → d.rtnl = true ∧ .call (.addDhcpProbeRoute ifindex) true ∈ more

theorem runs_probeRoutes {ifindex : UInt32} {r : Except String Bool}
    (h : Runs (probeRoutes ifindex) d r d') :
    ∃ added more, r = .ok added ∧ PutIn ifindex added d d' more := by
  rw [probeRoutes, runs_get_bind] at h
  split_ifs at h with hrtnl
  · rw [ask, runs_modifyGet_bind, ask, runs_modifyGet_bind] at h
    dsimp only at h
    cases hreply : (E.call (.addDhcpProbeRoute ifindex)
        (E.call (.addBroadcastRoute ifindex) d.world).2).1 with
    | ok reply =>
      rw [hreply] at h
      obtain ⟨rfl, rfl⟩ := runs_pure.mp h
      refine ⟨true, _, rfl, List.append_assoc _ _ _, rfl, rfl, rfl, fun i hleft => ?_,
        fun _ => ⟨hrtnl, List.mem_append_right _ (List.mem_singleton_self _)⟩⟩
      rw [← List.append_assoc] at hleft
      rcases left_added hleft with hi | hleft
      · exact .inl ⟨hi, rfl⟩
      · exact .inr ((left_append (by simp [Done.unrouted]) i).mp hleft)
    | error e =>
      rw [hreply] at h
      obtain ⟨rfl, rfl⟩ := runs_pure.mp h
      refine ⟨false, _, rfl, List.append_assoc _ _ _, rfl, rfl, rfl, fun i hleft => .inr ?_,
        by rintro ⟨⟩⟩
      exact (left_append (by simp [Done.unrouted, Except.isOk, Except.toBool]) i).mp hleft
  · obtain ⟨rfl, rfl⟩ := runs_pure.mp h
    exact ⟨false, [], rfl, (List.append_nil _).symm, rfl, rfl, rfl,
      fun i hleft => .inr (by rwa [List.append_nil] at hleft), by rintro ⟨⟩⟩

theorem runs_request {op : Op} {describe : String → String} {r : Except String op.Reply}
    (h : Runs (request op describe) d r d') :
    d' = { d.record (.call op r.isOk) with world := (E.call op d.world).2 } := by
  rw [request, ask, runs_modifyGet_bind] at h
  dsimp only at h
  cases hreply : (E.call op d.world).1 with
  | ok reply =>
    rw [hreply] at h
    obtain ⟨rfl, rfl⟩ := runs_pure.mp h
    rfl
  | error e =>
    rw [hreply] at h
    obtain ⟨rfl, rfl⟩ := runs_throw.mp h
    rfl

section PutIn

variable {ifindex : UInt32} {added : Bool} {more : List Done} {d₁ : Daemon S E}

theorem PutIn.step (h : PutIn ifindex added d d₁ more) {done : Done}
    (hjournal : d'.journal = d₁.journal ++ [done]) (hdone : done.unrouted = true)
    (hdhcp : d'.dhcp = d₁.dhcp) (htimers : d'.timers = d₁.timers) (hrtnl : d'.rtnl = d₁.rtnl) :
    PutIn ifindex added d d' (more ++ [done]) := by
  refine ⟨by rw [hjournal, h.journal, List.append_assoc], hdhcp.trans h.dhcp, htimers.trans h.timers,
    hrtnl.trans h.rtnl, fun i hleft => ?_, fun hadded => ?_⟩
  · rw [← List.append_assoc, left_append (by simpa using hdone)] at hleft
    exact h.left i hleft
  · exact ⟨(h.added hadded).1, List.mem_append_left _ (h.added hadded).2⟩

theorem PutIn.requested (h : PutIn ifindex added d d₁ more) {op : Op} {describe : String → String}
    {r : Except String op.Reply} (hop : op.isPlain = true) (hrun : Runs (request op describe) d₁ r d') :
    PutIn ifindex added d d' (more ++ [.call op r.isOk]) := by
  obtain rfl := runs_request hrun
  exact h.step rfl (unrouted_call hop _) rfl rfl rfl

/-- The exchange cannot be opened: unless a route was put in for it, nothing is left. -/
theorem PutIn.failed (h : PutIn ifindex added d d' more) (hdhcp : d.dhcp = none)
    (hfailed : .call .openDhcp false ∈ more ∨ .call .newXid false ∈ more) : Tidy d d' := by
  refine ⟨more, h.journal, fun hopened hd => ⟨fun _ => ?_, fun i hleft => ?_⟩⟩
  · rw [h.timers]
    exact hd.timers hdhcp
  · rw [h.journal] at hleft
    rcases h.left i hleft with ⟨-, hadded⟩ | hleft
    · obtain ⟨hopen, hxid⟩ := hopened ifindex (h.added hadded).2
      rcases hfailed with hmem | hmem
      · exact absurd hmem hopen
      · exact absurd hmem hxid
    · exact absurd hleft (hd.not_left hdhcp i)

theorem PutIn.opened (h : PutIn ifindex added d d' more) (hdhcp : d.dhcp = none) (machine : Dhcp4) :
    Tidy d { d' with dhcp := some { machine, ifindex, probeRoute := added } } := by
  refine ⟨more, h.journal, fun _ hd => ⟨nofun, fun i hleft => ?_⟩⟩
  rw [show ({ d' with dhcp := _ } : Daemon S E).journal = d.journal ++ more from h.journal] at hleft
  rcases h.left i hleft with ⟨rfl, hadded⟩ | hleft
  · exact ⟨h.rtnl.trans (h.added hadded).1, _, rfl, hadded, rfl⟩
  · exact absurd hleft (hd.not_left hdhcp i)

end PutIn

theorem tidy_startDhcp : Keeps Tidy (startDhcp : EngineM S E _) := by
  have hfresh (ifindex : UInt32) (device : Device) :
      Keeps (fun d d' => d.dhcp = none → Tidy d d') (do
        let probeRoute ← probeRoutes ifindex
        let _ ← request .openDhcp fun e =>
          "cannot open the DHCP socket (binding port 68 needs root): " ++ e
        let xid ← request .newXid id
        let hostname ← ask .readHostname
        let run : DhcpRun :=
          { machine := named (Dhcp4.new device.mac xid) hostname, ifindex, probeRoute }
        modify fun d => { d with dhcp := some run }
        let event ← driveDhcp (.start xid)
        pure (event.map Input.lease) : EngineM S E _) := by
    intro d r d' h hdhcp
    rcases runs_bind.mp h with ⟨probeRoute, d₁, hroutes, h⟩ | ⟨e, hroutes, -⟩
    · obtain ⟨added, more, hr, hput⟩ := runs_probeRoutes hroutes
      cases hr
      rcases runs_bind.mp h with ⟨_, d₂, hopen, h⟩ | ⟨e, hopen, -⟩
      · have hopened := hput.requested rfl hopen
        rcases runs_bind.mp h with ⟨xid, d₃, hxid, h⟩ | ⟨e, hxid, -⟩
        · have hdrawn := hopened.requested rfl hxid
          rcases runs_bind.mp h with ⟨hostname, d₄, hask, h⟩ | ⟨e, hask, -⟩
          · obtain ⟨done, hnamed⟩ : ∃ done, PutIn ifindex probeRoute d d₄ done := by
              obtain rfl := (runs_modifyGet.mp hask).2
              exact ⟨_, hdrawn.step rfl rfl rfl rfl rfl⟩
            rw [runs_modify_bind] at h
            exact IsTrans.trans _ _ _ (hnamed.opened hdhcp _)
              (keeps_bind (tidy_driveDhcp _) (fun _ => keeps_pure _) _ _ _ h)
          · exact absurd hask (total_modifyGet _ _ _ _)
        · exact (hopened.requested rfl hxid).failed hdhcp (.inr (by simp [Except.isOk, Except.toBool]))
      · exact (hput.requested rfl hopen).failed hdhcp (.inl (by simp [Except.isOk, Except.toBool]))
    · obtain ⟨added, more, hr, -⟩ := runs_probeRoutes hroutes
      cases hr
  refine keeps_bind ?_ fun ifindex => keeps_bind keeps_get fun d => ?_
  · refine keeps_bind keeps_get fun d => ?_
    split
    · exact keeps_pure _
    · exact keeps_throw _
  split
  · exact keeps_throw _
  · intro d r d' h
    rcases runs_bind.mp h with ⟨_, d₁, hstop, hrest⟩ | ⟨e, hstop, -⟩
    · obtain ⟨htidy, hnone⟩ := stopDhcp_clean _ _ _ hstop
      exact IsTrans.trans _ _ _ htidy (hfresh _ _ _ _ _ hrest hnone)
    · exact absurd hstop (total_stopDhcp _ _ _)

/-! ## Every event -/

theorem calls_tidy : Calls (Tidy : Daemon S E → Daemon S E → Prop) where
  calls _ _ hop := tidy_done rfl (unrouted_call hop _) rfl rfl rfl
  arms d id delay := by
    refine tidy_of (List.append_nil _).symm (fun x hx => absurd hx List.not_mem_nil) rfl rfl
      fun _ h e he => ?_
    rcases Timers.mem_arm he with he | he
    · exact h e he
    · rw [he]
      rfl
  disarms d matching _ := by
    refine tidy_of (List.append_nil _).symm (fun x hx => absurd hx List.not_mem_nil) rfl rfl
      fun _ h e he => h e ?_
    exact List.mem_of_mem_filter he
  eapol _ _ := tidy_same rfl rfl rfl rfl

theorem speaks_tidy : Speaks (Tidy : Daemon S E → Daemon S E → Prop) where
  sends _ _ _ := tidy_done rfl rfl rfl rfl rfl
  unwatched _ := tidy_same rfl rfl rfl rfl
  prompts _ _ _ := tidy_same rfl rfl rfl rfl

/-- **No event leaves anything unaccounted for.** -/
theorem conducts_tidy : Conducts (Tidy : Daemon S E → Daemon S E → Prop) where
  toCalls := calls_tidy
  toSpeaks := speaks_tidy
  polls _ _ _ _ _ _ := tidy_done rfl rfl rfl rfl rfl
  performs _ _ := tidy_done rfl rfl rfl rfl rfl
  watches _ _ := tidy_same rfl rfl rfl rfl
  removes _ := tidy_same rfl rfl rfl rfl
  rebuilds _ := keeps_bind (keeps_loadProfiles (tidy_ask fun _ => rfl)) fun _ =>
    keeps_bind (keeps_modify fun _ => tidy_same rfl rfl rfl rfl) fun _ => tidy_stopDhcp
  saves _ := keeps_bind (tidy_request (fun _ => rfl) _) fun _ =>
    keeps_modify fun _ => tidy_same rfl rfl rfl rfl
  deletes _ := tidy_request (fun _ => rfl) _
  drops := tidy_dropProbeRoute
  starts := tidy_startDhcp
  stops := tidy_stopDhcp
  drives := tidy_driveDhcp

end Daemon

end Caw
