import Caw.Daemon.Lease

/-!
# Notifications about other interfaces

The kernel tells every listener what becomes of every interface. The core is handed what a
notification says, and not which interface it says it of.

* `Connection.Heeds`: the notifications a core acts on, with **`poll_unheeded`**;
* `Daemon.Foreign`, `Daemon.Untouched`: a notification about another interface, and a step that it
  changes nothing by;
* `TakesSuccess`, `TakesRefusal`, `OwnOnly`: what only the attempt's own notifications may do;
* **`ownOnly_run`**: in a run where the core heeds no notification of another interface, and no answer
  of another access point, only its own have an effect;
* `ownOnly_fails`: an association on the other radio is taken for this one.
-/

set_option autoImplicit false

namespace Caw

open Caw.Core

namespace Connection

variable {S : Platform} {c : Connection S}

/-- The core acts on a notification, in the state it is in. -/
def Heeds (c : Connection S) : Nl80211.Event → Prop
  | .scanComplete .. => c.state = .scanning ∨ c.state = .connected
  | .scanAborted .. => c.state = .scanning
  | .connected .. => c.state = .associating
  | .disconnected .. => c.associated = true
  | .externalAuth _ _ abort => abort = true ∧ c.state = .authenticating
  | .authenticate frame => c.state = .authenticating ∧ (c.authBody frame).isSome
  | .authTimedOut | .frame _ => False

/-- **What is not heeded** does nothing. -/
theorem poll_unheeded {draws : Draws S} {event : Nl80211.Event} (h : ¬ c.Heeds event) :
    c.poll draws (.wireless event) = some (c, []) := by
  change c.onWireless draws event = some (c, [])
  cases event with
  | scanComplete wiphy ifindex => exact congrArg (fun actions => some (c, actions)) (if_neg h)
  | scanAborted wiphy ifindex => exact congrArg some (if_neg h)
  | connected bssid status => exact if_pos h
  | disconnected reason byAp => exact congrArg some (if_neg h)
  | externalAuth bssid ssid abort => exact congrArg some (if_neg h)
  | authenticate frame =>
    rw [onWireless]
    split_ifs with hst
    · rfl
    · cases hbody : c.authBody frame with
      | none => rfl
      | some body => exact absurd ⟨not_not.mp hst, by rw [hbody]; rfl⟩ h
  | authTimedOut => rfl
  | frame bytes => rfl

end Connection

namespace Daemon

open Effect
open Machine (exec log Along entry)

variable {S : Platform} {E : System S} {d d' : Daemon S E}

/-- The notification is about an interface that is not the connection's. -/
def Foreign (d : Daemon S E) (body : Bytes) : Prop :=
  ∃ ifindex, Nl80211.ifindexOf body = some ifindex ∧ d.ifindex ≠ some ifindex

/-- The actions performed so far. -/
def performed (d : Daemon S E) : List Core.Action :=
  d.journal.filterMap fun
    | .perform action => some action
    | _ => none

/-- The core stays where it is, with the session it has, and no action is performed. -/
structure Untouched (d d' : Daemon S E) : Prop where
  state : d'.state = d.state
  session : d'.core.bind Connection.session = d.core.bind Connection.session
  performed : d'.performed = d.performed

theorem Untouched.refl (d : Daemon S E) : Untouched d d := ⟨rfl, rfl, rfl⟩

theorem performed_polled {input : Input} (h : d'.journal = d.journal ++ [.poll input]) :
    d'.performed = d.performed := by
  simp [performed, h]

/-- It reports a refusal. -/
def isRefusal : Core.Action → Bool
  | .failed (.refused _) => true
  | _ => false

/-- How often an attempt has ended in a refusal. -/
def refusals (d : Daemon S E) : ℕ := d.performed.countP isRefusal

/-- The attempt goes on as associated. -/
def TakesSuccess (d d' : Daemon S E) : Prop :=
  d.state = .associating ∧
    (d'.state = .handshaking ∨ d'.state = .configuring ∨ d'.state = .connected)

/-- The attempt ends as refused. -/
def TakesRefusal (d d' : Daemon S E) : Prop := d'.refusals ≠ d.refusals

/-- The notification is the result of an association with another access point than the one
associated with. -/
def Answers (d : Daemon S E) (body : Bytes) (status : Nl80211.ConnectStatus) : Prop :=
  ∃ bssid, Nl80211.Event.decode body = some (.connected (some bssid) status) ∧ d.bssid ≠ some bssid

/-- **Only the attempt's own notifications have an effect on it**: those of another interface, and the
successes and refusals of another access point, change nothing, and that there is no answer from it is
taken for neither. -/
structure OwnOnly (d d' : Daemon S E) (body : Bytes) : Prop where
  foreign : Foreign d body → Untouched d d'
  answer : ∀ status, Answers d body status → status ≠ .timedOut → Untouched d d'
  result : ∀ status, Answers d body status → ¬ TakesSuccess d d' ∧ ¬ TakesRefusal d d'

/-- The core heeds no notification of another interface, and no answer of another access point
but that there is none. -/
def Unheeded (d : Daemon S E) (body : Bytes) : Prop :=
  ∀ core event, d.core = some core → Nl80211.Event.decode body = some event →
    (Foreign d body → ¬ core.Heeds event) ∧
      ∀ status, Answers d body status → core.state = .associating → status = .timedOut

/-! ## What an attempt may end in -/

/-- No attempt has been refused since. -/
def Unrefused (d d' : Daemon S E) : Prop := d'.refusals = d.refusals

instance : IsPreorder (Daemon S E) Unrefused where
  refl _ := rfl
  trans _ _ _ h h' := h'.trans h

theorem unrefused_polled {input : Input} (h : d'.journal = d.journal ++ [.poll input]) :
    Unrefused d d' := by
  rw [Unrefused, refusals, refusals, performed_polled h]

theorem admits_unrefused : Admits (Unrefused : Daemon S E → Daemon S E → Prop) where
  calls d op := by simp [Unrefused, refusals, performed]
  timers _ _ _ := rfl
  routes _ _ _ := rfl
  dhcp _ _ := rfl
  profiles _ _ := rfl
  eapol _ _ := rfl

theorem speaks_unrefused : Speaks (Unrefused : Daemon S E → Daemon S E → Prop) where
  sends d client message := by simp [Unrefused, refusals, performed]
  unwatched _ := rfl
  prompts _ _ _ := rfl

theorem unrefused_perform {action : Core.Action} (h : isRefusal action = false) :
    Keeps Unrefused (perform action : EngineM S E _) :=
  admits_unrefused.perform_of_speaks speaks_unrefused fun d => by
    simp [Unrefused, refusals, performed, h]

theorem unrefused_abort (reason : String) : Keeps Unrefused (abort reason : EngineM S E Unit) := by
  refine admits_unrefused.abort (fun d _ _ _ _ => ?_) (fun action hd => unrefused_perform ?_)
    (speaks_unrefused.tellFailed _)
  · exact unrefused_polled rfl
  · cases action <;> first | rfl | cases hd

/-- The attempt is over, and was not refused. -/
structure Over (d₀ d : Daemon S E) : Prop where
  state : d.state = .idle ∨ d.state = .reconnecting
  refusals : Unrefused d₀ d

theorem Over.abort {d₀ : Daemon S E} {reason : String} {r : Except String Unit}
    (h : Unrefused d₀ d) (hrun : Runs (abort reason) d r d') : Over d₀ d' := by
  refine ⟨.inl ?_, IsTrans.trans _ _ _ h (unrefused_abort reason _ _ _ hrun)⟩
  have hrests := runs_abort hrun
  unfold Daemon.state
  cases hcore : d'.core with
  | none => rfl
  | some core => exact (hrests core hcore).1

/-- **Nobody answered**: the attempt is over. -/
theorem over_timedOut {core : Connection S} {bssid : Option Mac} {r : Except String Unit}
    (hcore : d.core = some core) (hst : core.state = .associating)
    (h : Runs (feed (.wireless (.connected bssid .timedOut))) d r d') : Over d d' := by
  refine feed_ensures (J := Over d) (F := IsScan) ?_ ?_ (fun hnone => ?_) h
  · rintro d₁ input hover ⟨scan, rfl⟩ core₁ q x d₂ hcore₁ hpoll hperform
    have hignored : core₁.onScanResults (E.draw d₁.world).1 scan = some (core₁, []) := by
      have hst₁ := hover.state
      simp only [state, hcore₁, Option.map_some, Option.getD_some] at hst₁
      unfold Connection.onScanResults
      rcases hst₁ with hst₁ | hst₁ <;> rw [hst₁]
    cases hignored.symm.trans hpoll
    obtain ⟨rfl, rfl⟩ := runs_pure.mp hperform
    refine ⟨⟨by simpa [state, hcore₁] using hover.state, ?_⟩,
      fun _ hmem => absurd hmem List.not_mem_nil⟩
    exact IsTrans.trans _ _ _ hover.refusals (unrefused_polled rfl)
  · intro core₁ q x d₂ hcore₁ hpoll hperform
    cases hcore.symm.trans hcore₁
    have hfail : core.poll (E.draw d.world).1 (.wireless (.connected bssid .timedOut)) =
        some (core.fail .assocTimeout) := if_neg (not_not.mpr hst)
    cases hfail.symm.trans hpoll
    have hkeeps : Keeps Unrefused (performAll (core.fail .assocTimeout).2 : EngineM S E _) := by
      refine keeps_performAll fun action hmem => unrefused_perform ?_
      cases action with
      | failed failure =>
        rw [← Connection.mem_decisions rfl, Connection.decisions_fail] at hmem
        split_ifs at hmem
        · cases hmem
        · cases List.mem_singleton.mp hmem
          rfl
      | _ => rfl
    have hunrefused : Unrefused d d₂ := IsTrans.trans _ _ _ (unrefused_polled rfl)
      (hkeeps _ x d₂ hperform)
    cases x with
    | error e => exact fun r d' hrun => .abort hunrefused hrun
    | ok next =>
      refine ⟨⟨?_, hunrefused⟩, yields_performAll _ _ _ _ hperform⟩
      obtain ⟨core₂, hcore₂, hstate, -⟩ := (kin_performAll _ _ _ _ hperform).core rfl
      rw [state, hcore₂, Option.map_some, Option.getD_some, hstate, Connection.fail_fst]
      split_ifs
      · exact .inr rfl
      · exact .inl rfl
  · cases hcore.symm.trans hnone

/-! ## One notification -/

/-- What changes nothing is taken neither for a success nor for a refusal. -/
theorem Untouched.neither (h : Untouched d d') : ¬ TakesSuccess d d' ∧ ¬ TakesRefusal d d' := by
  refine ⟨?_, fun hrefusal => hrefusal ?_⟩
  · rintro ⟨hst, hst'⟩
    simp [h.state, hst] at hst'
  · rw [refusals, refusals, h.performed]

/-- A core that stays as it is, with no action performed, has not taken anything for its own. -/
theorem ownOnly_same (body : Bytes) (hcore : d'.core = d.core) (hactions : d'.performed = d.performed) :
    OwnOnly d d' body := by
  have hsame : Untouched d d' := ⟨by rw [state, state, hcore], by rw [hcore], hactions⟩
  exact ⟨fun _ => hsame, fun _ _ _ => hsame, fun _ _ => hsame.neither⟩

theorem onNotification_ownOnly {body : Bytes} {now : ℕ} {r : Except String Unit}
    (h : Unheeded d body) (hrun : Runs (onNotification body) { d with now := now } r d') :
    OwnOnly d d' body := by
  unfold onNotification at hrun
  cases hevent : Nl80211.Event.decode body with
  | none =>
    rw [hevent] at hrun
    obtain ⟨-, rfl⟩ := runs_pure.mp hrun
    exact ownOnly_same body rfl rfl
  | some event =>
    rw [hevent] at hrun
    cases hcore : d.core with
    | none =>
      rw [runs_feed_none (d := { d with now := now }) hcore hrun]
      exact ownOnly_same body rfl rfl
    | some core =>
      obtain ⟨hforeign, hresult⟩ := h core event hcore hevent
      by_cases hheeds : core.Heeds event
      · refine ⟨fun hf => absurd hheeds (hforeign hf), fun status hstatus hanswered => ?_,
          fun status hstatus => ?_⟩
        · obtain ⟨bssid, hanswer, -⟩ := id hstatus
          cases hevent.symm.trans hanswer
          exact absurd (hresult status hstatus hheeds) hanswered
        obtain ⟨bssid, hanswer, -⟩ := id hstatus
        cases hevent.symm.trans hanswer
        cases hresult status hstatus hheeds
        obtain ⟨hover, hunrefused⟩ := over_timedOut (d := { d with now := now }) hcore hheeds hrun
        refine ⟨?_, fun h => h hunrefused⟩
        rintro ⟨-, hst⟩
        rcases hover with hover | hover <;> simp [hover] at hst
      · rw [runs_feed_ignored (d := { d with now := now }) hcore
          (Connection.poll_unheeded hheeds) hrun]
        exact ownOnly_same body rfl (performed_polled (d := d) rfl)

/-- **One step** of a daemon that heeds no notification of another attempt. -/
theorem step_ownOnly {now : ℕ} {body : Bytes} (h : Unheeded d body) :
    OwnOnly d (step d (now, .notification body)).1 body := by
  unfold step wake
  cases hrun : (handle (.notification body)).run.run { d with now := now } with
  | none => exact ownOnly_same body rfl rfl
  | some p => exact onNotification_ownOnly h hrun

/-- **Only the attempt's own notifications have an effect on it**, in a run where the core heeds no
other. -/
theorem ownOnly_run (world : E.World) (nl rtnl : Bool) (events : List (ℕ × Event))
    (h : Along (fun _ e => ∀ body, e.input.2 = .notification body → Unheeded e.pre body)
      (log step (start world nl rtnl : Daemon S E) events)) :
    Along (fun _ e => ∀ body, e.input.2 = .notification body → OwnOnly e.pre e.post body)
      (log step (start world nl rtnl : Daemon S E) events) := by
  rw [Machine.along_log_iff] at h ⊢
  rintro before ⟨now, event⟩ after heq body hevent
  have hunheeded := h before (now, event) after heq body hevent
  change event = .notification body at hevent
  subst hevent
  exact step_ownOnly hunheeded

/-! ### A machine with two radios -/

/-- The other radio has associated with an access point. -/
def sampleElsewhere : Bytes :=
  [Nl80211.cmdConnect, 1, 0, 0, 8, 0, 3, 0, 4, 0, 0, 0, 10, 0, 6, 0, 9, 9, 9, 9, 9, 9, 0, 0]

theorem decode_sampleElsewhere : Nl80211.ifindexOf sampleElsewhere = some 4 ∧
    Nl80211.Event.decode sampleElsewhere = some (.connected (some (.replicate 6 9)) .success) := by
  decide +kernel

/-- It does so while this one scans. -/
def sampleTwoRadios : List (ℕ × Event) :=
  [(0, .connect 3 "n" 7), (1, .notification sampleElsewhere)]

theorem ownOnly_run_sample : Along
    (fun _ e => ∀ body, e.input.2 = .notification body → OwnOnly e.pre e.post body)
    (log step sampleStart sampleTwoRadios) := by
  refine ownOnly_run _ true true sampleTwoRadios ?_
  rw [Machine.along_log_iff]
  rintro before woken after heq body hevent
  match before, heq with
  | [], heq =>
    cases heq
    cases hevent
  | [_], heq =>
    cases heq
    cases hevent
    intro core event hcore hdecode
    change (exec step sampleStart [(0, .connect 3 "n" 7)]).core = some core at hcore
    have hstate : (exec step sampleStart [(0, .connect 3 "n" 7)]).state = .scanning := by
      decide +kernel
    have hst : core.state = .scanning := by simpa [state, hcore] using hstate
    cases decode_sampleElsewhere.2.symm.trans hdecode
    refine ⟨fun _ hheeds => ?_, fun _ _ hassociating => ?_⟩
    · cases hst.symm.trans hheeds
    · cases hst.symm.trans hassociating
  | _ :: _ :: _, heq => exact absurd (congrArg List.length heq) (by simp [sampleTwoRadios])

/-- **It does so while this one associates**, and this one comes up. -/
theorem ownOnly_fails :
    Foreign (exec step sampleStart (sampleOffered.take 2)) sampleElsewhere ∧
      Answers (exec step sampleStart (sampleOffered.take 2)) sampleElsewhere .success ∧
      ¬ OwnOnly (exec step sampleStart (sampleOffered.take 2))
        (exec step sampleStart (sampleOffered.take 2 ++ [(2, .notification sampleElsewhere)]))
        sampleElsewhere := by
  have hpre : (exec step sampleStart (sampleOffered.take 2)).state = .associating := by
    decide +kernel
  have hpost : (exec step sampleStart
      (sampleOffered.take 2 ++ [(2, .notification sampleElsewhere)])).state = .configuring := by
    decide +kernel
  have hforeign : Foreign (exec step sampleStart (sampleOffered.take 2)) sampleElsewhere := by
    refine ⟨4, decode_sampleElsewhere.1, ?_⟩
    decide +kernel
  refine ⟨hforeign, ⟨_, decode_sampleElsewhere.2, by decide +kernel⟩, fun h => ?_⟩
  have hstays := (h.foreign hforeign).state
  rw [hpre, hpost] at hstays
  cases hstays

end Daemon

end Caw
