import Caw.Core.Timers

/-!
# A prompt that waits

A BSS parked for its passphrase, and what the core is told while a person types.

* `Input.Unasked`: what comes without a command;
* `Connection.HoldsPrompt`: the prompt is left where it is, and nothing is asked for;
* `Connection.Undisturbing`: an input that touches neither the attempt nor the link;
* `holdsPrompt_of_undisturbing`, `select_ends`: what keeps a prompt, and what does not;
* **`prompt_held`**: a scan on hold is disturbed by scan results and scan aborts alone, and a prompt
  nothing disturbs is answered for the network it was about;
* `prompt_disturbed`: a second scan asks again, and an empty one ends the attempt.
-/

set_option autoImplicit false

namespace Caw

open Caw.Core

variable {S : Platform}

/-- Scan results, notifications and deadlines: what comes without a command. -/
def Core.Input.Unasked : Input → Prop
  | .scanResults _ | .wireless _ | .timer _ => True
  | _ => False

/-- What a scan ends in: results, or an abort. -/
def Core.Input.Resurveys : Input → Prop
  | .scanResults _ | .wireless (.scanAborted ..) => True
  | _ => False

namespace Connection

variable (c : Connection S) (draws : Draws S)

/-- The prompt is left where it is, and nothing is asked for but scan results. -/
def HoldsPrompt (input : Input) : Prop :=
  ∃ r, c.poll draws input = some r ∧ r.1.state = c.state ∧ r.1.target = c.target ∧
    r.1.pending = c.pending ∧ ∀ action ∈ r.2, ∃ ifindex, action = .fetchScanResults ifindex

/-- Nothing that chooses a BSS, moves an exchange on, or ends anything. -/
def Undisturbing : Input → Prop
  | .scanResults scan => c.state ≠ .scanning ∧ c.plans (.scanResults scan) = none
  | .wireless event => c.linkFailure event = none ∧
      (∀ bssid, event = .connected bssid .success → c.state ≠ .associating) ∧
      ∀ frame, event = .authenticate frame → c.state ≠ .authenticating
  | .timer id => c.state = .scanning ∨ timerOf c.state ≠ some id
  | _ => False

variable {c} {draws} {r : Connection S × List Action}

/-! ## What keeps a prompt -/

theorem holdsPrompt_of_poll {input : Input} (h : c.poll draws input = some (c, [])) :
    c.HoldsPrompt draws input :=
  ⟨_, h, rfl, rfl, rfl, by simp⟩

theorem onWireless_undisturbing {event : Nl80211.Event} (h : c.Undisturbing (.wireless event)) :
    c.HoldsPrompt draws (.wireless event) := by
  obtain ⟨hfail, hjoin, hauth⟩ := h
  have hidle : ∀ {p : Prop} [Decidable p] {failure : Failure},
      (if p then some failure else none) = none → ¬ p := by
    intro p _ failure h hp
    rw [if_pos hp] at h
    cases h
  cases event with
  | scanComplete wiphy ifindex =>
    refine ⟨_, rfl, rfl, rfl, rfl, ?_⟩
    dsimp only
    split_ifs
    · simp
    · simp
  | scanAborted wiphy ifindex =>
    exact holdsPrompt_of_poll (congrArg some (if_neg (hidle hfail)))
  | connected bssid status =>
    refine holdsPrompt_of_poll (if_pos ?_)
    cases status with
    | success => exact hjoin bssid rfl
    | refused code => exact hidle hfail
    | timedOut => exact hidle hfail
  | disconnected reason byAp =>
    exact holdsPrompt_of_poll (congrArg some (if_neg (hidle hfail)))
  | externalAuth bssid ssid abort =>
    exact holdsPrompt_of_poll (congrArg some (if_neg (hidle hfail)))
  | authenticate frame => exact holdsPrompt_of_poll (if_pos (hauth frame rfl))
  | authTimedOut => exact holdsPrompt_of_poll rfl
  | frame bytes => exact holdsPrompt_of_poll rfl

theorem considerRoam_undisturbing {scan : List Bss} (hst : c.state = .connected)
    (h : c.plans (.scanResults scan) = none) :
    c.considerRoam draws scan = some (c, []) ∨
      ∃ session, c.considerRoam draws scan = some (c.withSession session, []) := by
  unfold considerRoam
  split
  · rename_i session target hsession htarget
    simp only [plans, hst, hsession, htarget] at h
    dsimp only
    split
    · exact .inr ⟨_, rfl⟩
    · rename_i better hroam
      -- what a roam leads to is in the scan, so it would be planned for
      rw [hroam, Option.bind_some, Option.map_eq_none_iff, List.find?_eq_none] at h
      exact absurd (decide_eq_true rfl) (h better (Policy.roamTarget_mem hroam).1)
  · exact .inl rfl

/-- **What disturbs nothing leaves a prompt where it is.** -/
theorem holdsPrompt_of_undisturbing {input : Input} (hpending : c.pending.isSome)
    (h : c.Undisturbing input) : c.HoldsPrompt draws input := by
  cases input with
  | command command => exact h.elim
  | eapol frame => exact h.elim
  | lease event => exact h.elim
  | wireless event => exact onWireless_undisturbing h
  | timer id =>
    refine holdsPrompt_of_poll (onTimer_other ?_)
    by_cases hid : timerOf c.state = some id
    · rcases h with hst | hne
      · rw [hst] at hid
        cases hid
        exact .inr ⟨rfl, hpending⟩
      · exact absurd hid hne
    · exact .inl hid
  | scanResults scan =>
    obtain ⟨hst, hplans⟩ := h
    by_cases hconnected : c.state = .connected
    · have hpoll : c.poll draws (.scanResults scan) = c.considerRoam draws scan := by
        simp only [poll, onScanResults, hconnected]
      rcases considerRoam_undisturbing hconnected hplans with hroam | ⟨session, hroam⟩
      · exact holdsPrompt_of_poll (hpoll.trans hroam)
      · exact ⟨_, hpoll.trans hroam, rfl, rfl, rfl, by simp⟩
    · refine holdsPrompt_of_poll ?_
      unfold poll onScanResults
      cases hstate : c.state <;> first | rfl | exact absurd hstate hst | exact absurd hstate hconnected

/-! ## What does not -/

theorem fail_state_ne (failure : Failure) : (c.fail failure).1.state ≠ .scanning := by
  rw [fail_fst]
  split_ifs <;> simp

theorem saeDriven_state_ne {event : SaeEvent} (hst : c.state ≠ .scanning)
    (hd : SaeDriven c event r) : r.1.state ≠ .scanning := by
  cases hd with
  | off => exact hst
  | call target session provider q r htarget hsession hauth hq hm =>
    obtain ⟨provider', answer⟩ := q
    cases hm with
    | wait => exact hst
    | send frame request => exact hst
    | noBody frame => exact fail_state_ne _
    | done target session pmk => simp
    | fail e => exact fail_state_ne _

/-- A BSS planned for is joined, asked about, or the end of the attempt. -/
theorem planned_ends {bss : Bss} (hp : Planned c draws bss false r) :
    r.1.state ≠ .scanning ∨ ∃ prompt, .requestSecret prompt ∈ r.2 := by
  cases hp with
  | refused failure => exact .inl (fail_state_ne failure)
  | stay h => cases h
  | enterprise choice => exact .inl (fail_state_ne _)
  | prompt choice => exact .inr ⟨_, List.mem_append_right _ (List.mem_singleton.mpr rfl)⟩
  | unstaged credential choice failure => exact .inl (fail_state_ne failure)
  | sae credential choice provider q _ _ _ hd =>
    have hne : q.1.state ≠ .scanning := saeDriven_state_ne (by simp) hd
    exact .inl hne
  | associate credential choice auth target => exact .inl (by simp)

/-- **Scan results move a scan on**, prompt or no prompt. -/
theorem select_ends {scan : List Bss} (h : c.select draws scan = some r) :
    r.1.state ≠ .scanning ∨ ∃ prompt, .requestSecret prompt ∈ r.2 := by
  unfold select at h
  split at h
  · split at h
    · obtain ⟨bss, -, hp⟩ := planBssid_planned h
      exact planned_ends hp
    · cases h
      exact .inl (fail_state_ne _)
  · split at h
    · obtain ⟨bss, -, hp⟩ := planBssid_planned h
      exact planned_ends hp
    · cases h
      exact .inl (fail_state_ne _)

theorem not_holdsPrompt_of_resurveys {input : Input} (hst : c.state = .scanning)
    (h : input.Resurveys) : ¬ c.HoldsPrompt draws input := by
  rintro ⟨r, hpoll, hstate, -, -, hactions⟩
  cases input with
  | command command => exact h
  | eapol frame => exact h
  | lease event => exact h
  | timer id => exact h
  | scanResults scan =>
    simp only [poll, onScanResults, hst] at hpoll
    rcases select_ends hpoll with hne | ⟨prompt, hprompt⟩
    · exact hne (hstate.trans hst)
    · obtain ⟨ifindex, heq⟩ := hactions _ hprompt
      cases heq
  | wireless event =>
    cases event with
    | scanAborted wiphy ifindex =>
      simp only [poll, onWireless, hst, if_true] at hpoll
      cases hpoll
      exact fail_state_ne _ (hstate.trans hst)
    | _ => exact h

theorem undisturbing_iff {input : Input} (hst : c.state = .scanning) (h : input.Unasked) :
    c.Undisturbing input ↔ ¬ input.Resurveys := by
  cases input with
  | command command => exact h.elim
  | eapol frame => exact h.elim
  | lease event => exact h.elim
  | timer id => simp [Undisturbing, Input.Resurveys, hst]
  | scanResults scan => simp [Undisturbing, Input.Resurveys, hst]
  | wireless event =>
    cases event with
    | scanAborted wiphy ifindex => simp [Undisturbing, Input.Resurveys, linkFailure, hst]
    | connected bssid status => cases status <;> simp [Undisturbing, Input.Resurveys, linkFailure, hst]
    | disconnected reason byAp =>
      simp [Undisturbing, Input.Resurveys, linkFailure, hst, Connection.associated]
    | _ => simp [Undisturbing, Input.Resurveys, linkFailure, hst]

/-! ## Prompts over a run -/

theorem holdsPrompt_step {input : Input} (h : c.HoldsPrompt draws input) :
    (c.step (.poll draws input)).1.state = c.state ∧
      (c.step (.poll draws input)).1.target = c.target ∧
      (c.step (.poll draws input)).1.pending = c.pending ∧
      ∀ action ∈ (c.step (.poll draws input)).2, ∃ ifindex, action = .fetchScanResults ifindex := by
  obtain ⟨r, hpoll, hstate, htarget, hpending, hactions⟩ := h
  rw [step, hpoll]
  exact ⟨hstate, htarget, hpending, hactions⟩

/-- A call that is a poll with an input that disturbs nothing. -/
def Leaves (e : Entry S) : Prop := ∃ draws input, e.input = .poll draws input ∧ e.pre.Undisturbing input

/-- The prompt is as `c` left it. -/
structure Parked (c : Connection S) (past : List (Entry S)) (c' : Connection S) : Prop where
  state : c'.state = c.state
  target : c'.target = c.target
  pending : c'.pending = c.pending
  quiet : ∀ e ∈ past, ∀ action ∈ e.output, ∃ ifindex, action = .fetchScanResults ifindex

theorem Parked.step {past : List (Entry S)} {c' : Connection S} {call : Call S}
    (h : Parked c past c') (hpending : c.pending.isSome)
    (hleaves : Leaves (Machine.entry step c' call)) :
    Parked c (past ++ [Machine.entry step c' call]) (c'.step call).1 := by
  obtain ⟨draws, input, rfl, hun⟩ := hleaves
  obtain ⟨hstate, htarget, hpend, hactions⟩ :=
    holdsPrompt_step (holdsPrompt_of_undisturbing (h.pending ▸ hpending) hun)
  refine ⟨hstate.trans h.state, htarget.trans h.target, hpend.trans h.pending, ?_⟩
  intro e he
  rcases List.mem_append.mp he with hpast | hlast
  · exact h.quiet e hpast
  · rw [List.mem_singleton.mp hlast]
    exact hactions

theorem parked_run (hpending : c.pending.isSome) (calls : List (Call S))
    (h : Machine.Along (fun _ e => Leaves e) (Machine.log step c calls)) :
    Parked c (Machine.log step c calls) (Machine.exec step c calls) :=
  Machine.run_induction ⟨rfl, rfl, rfl, by simp⟩
    (fun _ _ _ hparked hleaves => hparked.step hpending hleaves) calls h

/-- **An outstanding prompt.** While a scan is on hold for one, of all scan results, notifications
and deadlines it is the scan results and the scan aborts that disturb it, and nothing else. And where
nothing disturbs a prompt, nothing ends the attempt and nothing is asked again, and the answer plans
for the BSS that was asked about. -/
theorem prompt_held (device : Device) (profiles : List Profile) :
    (∀ c : Connection S, Reachable device profiles c → c.state = .scanning → c.pending.isSome →
      ∀ draws input, input.Unasked → (c.HoldsPrompt draws input ↔ ¬ input.Resurveys)) ∧
    ∀ (c : Connection S) (bss : Bss) (calls : List (Call S)), Reachable device profiles c →
      c.pending = some bss →
      Machine.Along (fun _ e => Leaves e) (Machine.log step c calls) →
      Parked c (Machine.log step c calls) (Machine.exec step c calls) ∧
      ∃ target, c.target = some target ∧ ∀ draws secret,
        (Machine.exec step c calls).poll draws (.command (.secret secret)) =
          plan { (Machine.exec step c calls).withTarget { target with secret := some secret } with
            pending := none } draws bss false := by
  refine ⟨fun c _ hst hpending draws input hun => ⟨fun h hre => ?_, fun h => ?_⟩,
    fun c bss calls hreach hpending hcalls => ?_⟩
  · exact not_holdsPrompt_of_resurveys hst hre h
  · exact holdsPrompt_of_undisturbing hpending ((undisturbing_iff hst hun).mpr h)
  · have hsome : c.pending.isSome := by rw [hpending]; rfl
    have hparked := parked_run hsome calls hcalls
    obtain ⟨target, htarget⟩ := Option.isSome_iff_exists.mp (hreach.sound.targeted (.inr hsome))
    refine ⟨hparked, target, htarget, fun draws secret => ?_⟩
    have hpending' := hparked.pending.trans hpending
    simp only [poll, onCommand, hparked.target.trans htarget, withTarget_pending, hpending']

/-! ### A second scan -/

/-- A network that asks for a passphrase has been found. -/
def sampleParked : List (Call .sample) :=
  [.poll .sample (.command (.connect [110])), .poll .sample (.scanResults [samplePskBss])]

/-- While it waits, a scan ends; the answer then goes to the network asked about. -/
theorem prompt_held_sample :
    (Machine.exec step (new sampleDevice [] : Connection .sample) sampleParked).HoldsPrompt .sample
        (.wireless (.scanComplete 0 3)) ∧
      Parked (Machine.exec step (new sampleDevice [] : Connection .sample) sampleParked)
        [Machine.entry step (Machine.exec step (new sampleDevice []) sampleParked)
          (.poll .sample (.wireless (.scanComplete 0 3)))]
        (Machine.exec step (new sampleDevice []) (sampleParked ++
          [.poll .sample (.wireless (.scanComplete 0 3))])) := by
  obtain ⟨hiff, hrun⟩ := prompt_held (S := .sample) sampleDevice []
  have hun : (Input.wireless (.scanComplete 0 3)).Unasked := trivial
  refine ⟨(hiff _ ⟨sampleParked, rfl⟩ rfl rfl _ _ hun).mpr id, ?_⟩
  refine (hrun _ samplePskBss [.poll .sample (.wireless (.scanComplete 0 3))] ⟨sampleParked, rfl⟩ rfl
    ?_).1
  rw [Machine.log, Machine.log]
  rintro past e rest heq
  cases past with
  | nil =>
    cases heq
    exact ⟨_, _, rfl, (undisturbing_iff rfl hun).mpr id⟩
  | cons e' past => simp at heq

/-- A second scan asks again, an empty one ends the attempt, and so does an abort. -/
theorem prompt_disturbed :
    (Machine.exec step (new sampleDevice [] : Connection .sample) sampleParked).pending =
        some samplePskBss ∧
      (step (Machine.exec step (new sampleDevice []) sampleParked)
          (.poll .sample (.scanResults [samplePskBss]))).2 = [.requestSecret "Passphrase for n"] ∧
      (step (Machine.exec step (new sampleDevice []) sampleParked)
          (.poll .sample (.scanResults []))).2 = [.failed .notFound] ∧
      (step (Machine.exec step (new sampleDevice []) sampleParked)
          (.poll .sample (.wireless (.scanAborted 0 3)))).2 = [.failed .notFound] :=
  ⟨rfl, by decide +kernel, by decide +kernel, by decide +kernel⟩

end Connection

end Caw
