import Caw.Dhcp.Client
import Caw.Lib.Machine

/-!
# The lifetime of a lease

The client has no clock: what it holds lasts until a timer it asked for is delivered. Whatever
reaches it, and in whatever order timers are delivered, the timers it needs are outstanding.

* `Dhcp4.fresh`, `Dhcp4.Turn`: a client that has sent nothing, and one poll of it in a log;
* `Dhcp4.ArmedBy`: a timer is outstanding, and the poll that armed it;
* `Dhcp4.Acts`: the delivery of a timer would send a message or change the state;
* `Dhcp4.Tended`, **`Dhcp4.Tended.step`**: the invariant of every run;
* **`Dhcp4.lease_lifetime`**: a lease is never held past its end, and no exchange hangs.
-/

set_option autoImplicit false

namespace Caw

namespace Dhcp4

open Dhcp Machine

/-- A client that has sent nothing yet, with or without a name of its own. -/
def fresh (mac : Mac) (xid : UInt32) (hostname : Option String) : Dhcp4 :=
  { new mac xid with hostname := hostname }

/-- One poll, as an observer sees it. -/
abbrev Turn : Type := Entry Dhcp4 Dhcp.Input (List Dhcp.Action)

/-- A poll delivers a timer or arms it. -/
def Touches (timer : Timer) (e : Turn) : Prop :=
  e.input = .timeout timer ∨ ∃ secs, .setTimer timer secs ∈ e.output

/-- The timer is outstanding: poll `e` armed it for `secs` seconds, and no later poll has delivered
it or armed it anew. -/
def ArmedBy (past : List Turn) (timer : Timer) (secs : ℕ) (e : Turn) : Prop :=
  ∃ before after, past = before ++ e :: after ∧ .setTimer timer secs ∈ e.output ∧
    ∀ later ∈ after, ¬ Touches timer later

/-- The delivery of the timer would send a message or change the state. -/
def Acts (m : Dhcp4) (timer : Timer) : Prop :=
  (∃ data, .broadcast data ∈ (m.poll (.timeout timer)).2) ∨
    (∃ addr data, .unicast addr data ∈ (m.poll (.timeout timer)).2) ∨
    (m.poll (.timeout timer)).1.state ≠ m.state

variable {past : List Turn} {timer : Timer} {secs : ℕ} {e e' : Turn} {m : Dhcp4}

theorem armedBy_concat (h : .setTimer timer secs ∈ e.output) : ArmedBy (past ++ [e]) timer secs e :=
  ⟨past, [], rfl, h, fun _ hmem => absurd hmem List.not_mem_nil⟩

theorem ArmedBy.keep (h : ArmedBy past timer secs e) (he : ¬ Touches timer e') :
    ArmedBy (past ++ [e']) timer secs e := by
  obtain ⟨before, after, rfl, harm, hafter⟩ := h
  refine ⟨before, after ++ [e'], by simp, harm, fun later hmem => ?_⟩
  rcases List.mem_append.mp hmem with hmem | hmem
  · exact hafter later hmem
  · rw [List.mem_singleton.mp hmem]
    exact he

/-! ## What a delivery does -/

/-- The states in which nothing but the retransmission timer ends the wait. -/
def Waiting (s : Dhcp.State) : Prop := s = .selecting ∨ s = .requesting

/-- **The retransmission timer acts while an answer is awaited.** -/
theorem acts_retransmit (h : Waiting m.state) : m.Acts .retransmit := by
  have hacts : m.Acts .retransmit ↔ (∃ data, .broadcast data ∈ m.retransmit.2) ∨
      (∃ addr data, .unicast addr data ∈ m.retransmit.2) ∨ m.retransmit.1.state ≠ m.state := Iff.rfl
  rw [hacts]
  rcases h with h | h
  · simp only [retransmit, h]
    split_ifs
    · exact .inr (.inr nofun)
    · exact .inl ⟨_, List.mem_cons_self⟩
  · simp only [retransmit, h]
    split_ifs
    · exact .inr (.inr nofun)
    · exact .inl ⟨_, List.mem_cons_self⟩

/-- **The end of a lease acts while one is held.** -/
theorem acts_expire (hinv : LeaseInv m) (h : Holding m.state) : m.Acts .expire := by
  have hlease : m.lease.isSome = true := hinv.mpr h
  have hpoll : m.poll (.timeout .expire) = (m.unleased, [.deconfigure .expired]) := by
    simp only [poll, onTimeout, hlease, if_true]
  refine .inr (.inr ?_)
  rw [hpoll]
  rcases h with h | h | h <;> rw [h] <;> exact nofun

/-! ## The invariant -/

/-- The timers a client needs are outstanding. -/
structure Tended (past : List Turn) (m : Dhcp4) : Prop where
  lease : LeaseInv m
  expire : ∀ lease, m.lease = some lease →
    ∃ e, .configured lease ∈ e.output ∧ ArmedBy past .expire lease.leaseSecs e
  retransmit : Waiting m.state → ∃ secs e, ArmedBy past .retransmit secs e

theorem tended_fresh (mac : Mac) (xid : UInt32) (hostname : Option String) :
    Tended [] (fresh mac xid hostname) :=
  ⟨leaseInv_new mac xid, nofun, fun h => by rcases h with h | h <;> cases h⟩

theorem not_acts_of_ignored (h : m.poll (.timeout timer) = (m, [])) : ¬ m.Acts timer := by
  rintro (⟨data, hmem⟩ | ⟨addr, data, hmem⟩ | hstate)
  · rw [h] at hmem
    exact absurd hmem List.not_mem_nil
  · rw [h] at hmem
    exact absurd hmem List.not_mem_nil
  · rw [h] at hstate
    exact hstate rfl

section Step

variable {input : Dhcp.Input} {out : List Dhcp.Action} {m' : Dhcp4}

theorem not_touches_of_ignored (hpoll : m.poll input = (m, [])) (hacts : m.Acts timer) :
    ¬ Touches timer ⟨m, input, [], m⟩ := by
  rintro (hinput | ⟨secs, hmem⟩)
  · cases hinput
    exact not_acts_of_ignored hpoll hacts
  · exact absurd hmem List.not_mem_nil

theorem not_touches (hinput : input ≠ .timeout timer) (hout : ∀ secs, .setTimer timer secs ∉ out) :
    ¬ Touches timer ⟨m, input, out, m'⟩ := by
  rintro (h | ⟨secs, h⟩)
  · exact hinput h
  · exact hout secs h

theorem Tended.keep_expire (h : Tended past m) (hlease : m'.lease = m.lease)
    (hinput : input ≠ .timeout .expire) (hout : ∀ secs, .setTimer .expire secs ∉ out)
    (lease : Lease) (hm : m'.lease = some lease) : ∃ e, .configured lease ∈ e.output ∧
      ArmedBy (past ++ [⟨m, input, out, m'⟩]) .expire lease.leaseSecs e := by
  obtain ⟨e, hconfigured, harmed⟩ := h.expire lease (hlease ▸ hm)
  exact ⟨e, hconfigured, harmed.keep (not_touches hinput hout)⟩

/-- **Every poll keeps the timers.** -/
theorem Tended.step (h : Tended past m) (input : Dhcp.Input) :
    Tended (past ++ [entry poll m input]) (m.poll input).1 := by
  have hs := m.poll_step input
  have hinv := h.lease.poll input
  unfold entry
  generalize hpoll : m.poll input = r at hs hinv ⊢
  obtain ⟨m', out⟩ := r
  cases hs with
  | ignore =>
    refine ⟨hinv, fun lease hm => ?_, fun hwaiting => ?_⟩
    · obtain ⟨e, hconfigured, harmed⟩ := h.expire lease hm
      have hacts := acts_expire h.lease (h.lease.mp (by rw [hm]; rfl))
      exact ⟨e, hconfigured, harmed.keep (not_touches_of_ignored hpoll hacts)⟩
    · obtain ⟨secs, e, harmed⟩ := h.retransmit hwaiting
      exact ⟨secs, e, harmed.keep (not_touches_of_ignored hpoll (acts_retransmit hwaiting))⟩
  | start =>
    exact ⟨hinv, nofun,
      fun _ => ⟨_, _, armedBy_concat (List.mem_cons_of_mem _ List.mem_cons_self)⟩⟩
  | offer =>
    exact ⟨hinv, h.keep_expire rfl nofun (by simp),
      fun _ => ⟨_, _, armedBy_concat (List.mem_cons_of_mem _ List.mem_cons_self)⟩⟩
  | ack bytes msg lease =>
    refine ⟨hinv, fun lease' hm => ?_, fun hwaiting => by rcases hwaiting with h | h <;> cases h⟩
    cases hm
    exact ⟨_, by simp, armedBy_concat (by simp)⟩
  | nak => exact ⟨hinv, nofun, fun hwaiting => by rcases hwaiting with h | h <;> cases h⟩
  | expire => exact ⟨hinv, nofun, fun hwaiting => by rcases hwaiting with h | h <;> cases h⟩
  | giveUp =>
    exact ⟨hinv, h.keep_expire rfl nofun (by simp),
      fun hwaiting => by rcases hwaiting with h | h <;> cases h⟩
  | resend =>
    exact ⟨hinv, h.keep_expire rfl nofun (by simp),
      fun _ => ⟨_, _, armedBy_concat (List.mem_cons_of_mem _ List.mem_cons_self)⟩⟩
  | renewAgain hst =>
    refine ⟨hinv, h.keep_expire rfl nofun (by simp), fun hwaiting => ?_⟩
    exact absurd hwaiting (by simp [Waiting, hst])
  | rebindAgain hst =>
    refine ⟨hinv, h.keep_expire rfl nofun (by simp), fun hwaiting => ?_⟩
    exact absurd hwaiting (by simp [Waiting, hst])
  | renew =>
    exact ⟨hinv, h.keep_expire rfl nofun (by simp),
      fun hwaiting => by rcases hwaiting with h | h <;> cases h⟩
  | rebind =>
    exact ⟨hinv, h.keep_expire rfl nofun (by simp),
      fun hwaiting => by rcases hwaiting with h | h <;> cases h⟩

end Step

/-! ## Every run -/

theorem tended_run (mac : Mac) (xid : UInt32) (hostname : Option String)
    (inputs : List Dhcp.Input) :
    Tended (log poll (fresh mac xid hostname) inputs) (exec poll (fresh mac xid hostname) inputs) :=
  run_induction (J := Tended) (G := fun _ _ => True) (tended_fresh mac xid hostname)
    (fun _ _ input h _ => h.step input) inputs fun _ _ _ _ => trivial

/-- **A lease never outlives its timer, and no exchange hangs.** After any inputs, deliveries of
timers in any order among them: a lease is held exactly in the bound, renewing and rebinding states;
while one is held, the timer of its end is outstanding, armed by the poll that granted it; and in
every state but the initial one some outstanding timer acts. -/
theorem lease_lifetime (mac : Mac) (xid : UInt32) (hostname : Option String)
    (inputs : List Dhcp.Input) :
    ((exec poll (fresh mac xid hostname) inputs).lease.isSome ↔
      Holding (exec poll (fresh mac xid hostname) inputs).state) ∧
    (∀ lease, (exec poll (fresh mac xid hostname) inputs).lease = some lease →
      ∃ e, .configured lease ∈ e.output ∧
        ArmedBy (log poll (fresh mac xid hostname) inputs) .expire lease.leaseSecs e) ∧
    ((exec poll (fresh mac xid hostname) inputs).state ≠ .init →
      ∃ timer secs e, ArmedBy (log poll (fresh mac xid hostname) inputs) timer secs e ∧
        (exec poll (fresh mac xid hostname) inputs).Acts timer) := by
  have h := tended_run mac xid hostname inputs
  generalize log poll (fresh mac xid hostname) inputs = past at h ⊢
  generalize exec poll (fresh mac xid hostname) inputs = m at h ⊢
  refine ⟨h.lease, h.expire, fun hstate => ?_⟩
  by_cases hholding : Holding m.state
  · obtain ⟨lease, hm⟩ := Option.isSome_iff_exists.mp (h.lease.mpr hholding)
    obtain ⟨e, -, harmed⟩ := h.expire lease hm
    exact ⟨_, _, e, harmed, acts_expire h.lease hholding⟩
  · have hwaiting : Waiting m.state := by
      cases hst : m.state <;> simp_all [Holding, Waiting]
    obtain ⟨secs, e, harmed⟩ := h.retransmit hwaiting
    exact ⟨_, _, e, harmed, acts_retransmit hwaiting⟩

end Dhcp4

end Caw
