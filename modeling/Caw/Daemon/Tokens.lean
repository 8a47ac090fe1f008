import Caw.Daemon.History
import Caw.Daemon.Lease

/-!
# Which answers reach the core

A prompt carries a token, and an answer quotes it. Who asks, who answers, and who comes and goes in
between may follow in any order.

* `Prompted`: a prompt that is still to be answered, by `Voids`, what voids one, and `Closes`, the
  disconnect of a shutdown;
* `AnswersOnly`, `Counted`: what is typed answers such a prompt, and what the tokens are;
* `Tended`: the invariant, with **`borne_tended`** for the entry points;
* **`secrets_run`**: in every run a passphrase reaches the core only as the first answer of the client
  that was asked last, to what it was asked.
-/

set_option autoImplicit false

namespace Caw

open Caw.Core

namespace Daemon

open Effect
open Machine (log Entry entry run_induction)

/-- It voids a prompt the client has been sent: another prompt, an answer that is taken, another
attempt, a disconnect, an error the client is told of, or that the client goes away. -/
def Voids (client : ClientId) : Happening → Prop
  | .did (.send _ (.needSecret ..)) => True
  | .did (.poll (.command (.secret _))) => True
  | .did (.poll (.command (.connect _))) => True
  | .did (.poll (.command .disconnect)) => True
  | .did (.send recipient (.error _)) => recipient = client
  | .woken (.forgetClient gone) => gone = client
  | _ => False

/-- The token of a prompt. -/
def Happening.token : Happening → Option UInt64
  | .did (.send _ (.needSecret token _)) => some token
  | _ => none

/-- The tokens that were handed out. -/
def tokens (happened : List Happening) : List UInt64 := happened.filterMap Happening.token

/-- It is the disconnect of a daemon that has been told to stop, which is the last it does. -/
def Closes (happened : List Happening) (x : Happening) : Prop :=
  x = .did (.poll (.command .disconnect)) ∧ .woken .shutDown ∈ happened

/-- The client has been sent a prompt with the token, and nothing has voided it since but a shutdown. -/
def Prompted (token : UInt64) (client : ClientId) (happened : List Happening) : Prop :=
  ∃ before prompt after, happened = before ++ .did (.send client (.needSecret token prompt)) :: after ∧
    ∀ x ∈ after, Voids client x → Closes happened x

/-- **What the core is told was typed** is what a client answers to the prompt it has been sent. -/
def AnswersOnly (happened : List Happening) : Prop :=
  ∀ before value after, happened = before ++ .did (.poll (.command (.secret value))) :: after →
    ∃ earlier token client, before = earlier ++ [.woken (.secret token value client)] ∧
      Prompted token client earlier

/-- The tokens count the prompts, from one on. -/
def Counted (happened : List Happening) : Prop :=
  tokens happened = (List.range (tokens happened).length).map fun i => UInt64.ofNat (i + 1)

variable {S : Platform} {E : System S} {d d' d₀ : Daemon S E} {happened : List Happening}

/-! ## One thing more -/

@[simp] theorem tokens_concat (x : Happening) :
    tokens (happened ++ [x]) = tokens happened ++ x.token.toList := by
  rw [tokens, List.filterMap_append]
  cases h : x.token <;> simp [tokens, h]

theorem Closes.append {x : Happening} (h : Closes happened x) (more : List Happening) :
    Closes (happened ++ more) x :=
  ⟨h.1, List.mem_append_left _ h.2⟩

theorem Prompted.concat {token : UInt64} {client : ClientId} (h : Prompted token client happened)
    {x : Happening} (hx : Voids client x → Closes happened x) :
    Prompted token client (happened ++ [x]) := by
  obtain ⟨before, prompt, after, heq, hafter⟩ := h
  refine ⟨before, prompt, after ++ [x], by simp [heq], fun y hy hvoids => ?_⟩
  rcases List.mem_append.mp hy with hy | hy
  · exact (hafter y hy hvoids).append [x]
  · rw [List.mem_singleton.mp hy] at hvoids ⊢
    exact (hx hvoids).append [x]

/-- The thing is not that something was typed. -/
def Untyped (x : Happening) : Prop := ∀ value, x ≠ .did (.poll (.command (.secret value)))

theorem AnswersOnly.concat (h : AnswersOnly happened) {x : Happening}
    (hx : ∀ value, x = .did (.poll (.command (.secret value))) →
      ∃ earlier token client, happened = earlier ++ [.woken (.secret token value client)] ∧
        Prompted token client earlier) : AnswersOnly (happened ++ [x]) := by
  intro before value after heq
  rcases List.eq_nil_or_concat' after with rfl | ⟨rest, last, rfl⟩
  · obtain ⟨rfl, hlast⟩ := List.append_inj' heq rfl
    exact hx value (List.singleton_inj.mp hlast)
  · rw [← List.cons_append, ← List.append_assoc] at heq
    exact h before value rest (List.append_inj' heq rfl).1

theorem Counted.concat (h : Counted happened) {x : Happening}
    (hx : ∀ token, x.token = some token → token = UInt64.ofNat ((tokens happened).length + 1)) :
    Counted (happened ++ [x]) := by
  rw [Counted, tokens_concat]
  cases htoken : x.token with
  | none =>
    rw [Option.toList_none, List.append_nil]
    exact h
  | some token =>
    rw [Option.toList_some, List.length_append, List.length_singleton, List.range_succ,
      List.map_append, List.map_singleton, ← h, hx token htoken]

/-! ## The invariant -/

/-- The prompt that is out is still to be answered, and its token is the latest. -/
structure Tended (happened : List Happening) (d : Daemon S E) : Prop where
  answers : AnswersOnly happened
  pending : ∀ prompt, d.pendingSecret = some prompt → Prompted prompt.token prompt.client happened
  counted : Counted happened
  next : d.nextToken = UInt64.ofNat ((tokens happened).length + 1)

/-- The same, of what happened until a daemon began and all that it did since. -/
def TendedSince (happened : List Happening) (d₀ d : Daemon S E) : Prop :=
  ∃ more, d.journal = d₀.journal ++ more ∧ Tended (happened ++ more.map .did) d

theorem Tended.since (h : Tended happened d) (hjournal : d.journal = d₀.journal) :
    TendedSince happened d₀ d :=
  ⟨[], by simp [hjournal], by simpa using h⟩

theorem TendedSince.same (h : TendedSince happened d₀ d) (hjournal : d'.journal = d.journal)
    (hpending : ∀ prompt, d'.pendingSecret = some prompt → d.pendingSecret = some prompt)
    (hnext : d'.nextToken = d.nextToken) : TendedSince happened d₀ d' := by
  obtain ⟨more, hmore, htended⟩ := h
  exact ⟨more, hjournal.trans hmore, htended.answers, fun p hp => htended.pending p (hpending p hp),
    htended.counted, hnext.trans htended.next⟩

/-- **One thing is done** that neither types anything nor voids the prompt that is out, unless the
daemon has been told to stop. -/
theorem TendedSince.did_of (h : TendedSince happened d₀ d) {done : Done}
    (hjournal : d'.journal = d.journal ++ [done]) (hnext : d'.nextToken = d.nextToken)
    (htoken : Happening.token (.did done) = none) (hdone : Untyped (.did done))
    (hpending : ∀ prompt, d'.pendingSecret = some prompt →
      d.pendingSecret = some prompt ∧
        (Voids prompt.client (.did done) → Closes happened (.did done))) :
    TendedSince happened d₀ d' := by
  obtain ⟨more, hmore, htended⟩ := h
  refine ⟨more ++ [done], by rw [hjournal, hmore, List.append_assoc], ?_⟩
  rw [List.map_append, List.map_singleton, ← List.append_assoc]
  refine ⟨htended.answers.concat fun value hx => absurd hx (hdone value), fun prompt hp => ?_,
    htended.counted.concat fun token hx => ?_, ?_⟩
  · obtain ⟨hold, hvoids⟩ := hpending prompt hp
    exact (htended.pending prompt hold).concat fun hv => (hvoids hv).append _
  · rw [htoken] at hx
    cases hx
  · rw [hnext, tokens_concat, htoken, Option.toList_none, List.append_nil, htended.next]

theorem TendedSince.did (h : TendedSince happened d₀ d) {done : Done}
    (hjournal : d'.journal = d.journal ++ [done]) (hnext : d'.nextToken = d.nextToken)
    (htoken : Happening.token (.did done) = none) (hdone : Untyped (.did done))
    (hpending : ∀ prompt, d'.pendingSecret = some prompt →
      d.pendingSecret = some prompt ∧ ¬ Voids prompt.client (.did done)) :
    TendedSince happened d₀ d' :=
  h.did_of hjournal hnext htoken hdone fun prompt hp =>
    ⟨(hpending prompt hp).1, fun hvoids => absurd hvoids (hpending prompt hp).2⟩

/-! ## What actions do -/

theorem exchanges_tended :
    Exchanges (Keeping (TendedSince happened d₀) : Daemon S E → Daemon S E → Prop) where
  calls _ _ h := h.did rfl rfl rfl nofun fun _ hp => ⟨hp, id⟩
  timers _ _ _ h := h.same rfl (fun _ => id) rfl
  routes _ _ _ h := h.same rfl (fun _ => id) rfl
  dhcp _ _ h := h.same rfl (fun _ => id) rfl
  eapol _ _ h := h.same rfl (fun _ => id) rfl

theorem TendedSince.sent (h : TendedSince happened d₀ d) (client : ClientId) (message : Message)
    (hprompt : ∀ token prompt, message ≠ .needSecret token prompt)
    (herror : ∀ reason, message ≠ .error reason) :
    TendedSince happened d₀ (d.record (.send client message)) := by
  refine h.did rfl rfl ?_ nofun fun _ hp => ⟨hp, ?_⟩
  · cases message <;> first | rfl | exact absurd rfl (hprompt _ _)
  · cases message <;> first | exact id | exact absurd rfl (hprompt _ _) | exact absurd rfl (herror _)

theorem tended_notify (state : State) :
    Keeps (Keeping (TendedSince happened d₀)) (notify state : EngineM S E Unit) := by
  intro d r d' hrun h
  rw [(runs_notify hrun).2]
  unfold afterNotice
  cases d.watcher with
  | none => exact h
  | some client =>
    have hok {d : Daemon S E} (h : TendedSince happened d₀ d) :
        TendedSince happened d₀ { d.record (.send client .ok) with watcher := none } :=
      (h.sent client .ok (by rintro _ _ ⟨⟩) (by rintro _ ⟨⟩)).same rfl (fun _ => id) rfl
    dsimp only
    cases hprogress : progress d.bssid state with
    | none =>
      split_ifs
      · exact hok h
      · exact h
    | some message =>
      have hsent : TendedSince happened d₀ (d.record (.send client message)) := by
        refine h.sent client message ?_ ?_ <;> cases state <;> cases hprogress <;> simp
      split_ifs
      · exact hok hsent
      · exact hsent

theorem TendedSince.refused (h : TendedSince happened d₀ d) {client : ClientId} {reason : String}
    (hjournal : d'.journal = d.journal ++ [.send client (.error reason)])
    (hnext : d'.nextToken = d.nextToken) (hpending : d'.pendingSecret = none) :
    TendedSince happened d₀ d' :=
  h.did hjournal hnext rfl nofun fun _ hp => nomatch hpending.symm.trans hp

theorem tended_tellFailed (reason : String) :
    Keeps (Keeping (TendedSince happened d₀)) (tellFailed reason : EngineM S E Unit) := by
  intro d r d' hrun h
  rw [(runs_tellFailed hrun).2]
  unfold afterFailure
  cases d.watcher with
  | none => exact h.same rfl nofun rfl
  | some client =>
    exact (h.sent client (.failed reason) nofun nofun).refused rfl rfl rfl

theorem tended_supersede (client : ClientId) (reason : String) :
    Keeps (Keeping (TendedSince happened d₀)) (supersede client reason : EngineM S E Unit) := by
  intro d r d' hrun h
  rw [(runs_supersede hrun).2]
  unfold afterSupersede
  split
  · exact h.same rfl nofun rfl
  · split_ifs
    · exact h.refused rfl rfl rfl
    · exact h.same rfl nofun rfl

/-- **A prompt** carries the next token. -/
theorem tended_requestSecret (prompt : String) :
    Keeps (Keeping (TendedSince happened d₀)) (requestSecret prompt : EngineM S E Unit) := by
  intro d r d' hrun h
  rcases runs_requestSecret hrun with ⟨-, rfl, -⟩ | ⟨client, -, -, rfl⟩
  · exact h
  obtain ⟨more, hmore, htended⟩ := h
  refine ⟨more ++ [.send client (.needSecret d.nextToken prompt)], by simp [hmore], ?_⟩
  rw [List.map_append, List.map_singleton, ← List.append_assoc]
  refine ⟨htended.answers.concat fun _ heq => ?_, fun pending hpending => ?_,
    htended.counted.concat fun token htoken => ?_, ?_⟩
  · cases heq
  · cases hpending
    exact ⟨_, prompt, [], rfl, fun _ hx => absurd hx List.not_mem_nil⟩
  · cases htoken
    exact htended.next
  · have hlength : (tokens ((happened ++ more.map .did) ++
        [.did (.send client (.needSecret d.nextToken prompt))])).length =
        (tokens (happened ++ more.map .did)).length + 1 := by
      rw [tokens_concat, List.length_append]
      rfl
    rw [hlength, UInt64.ofNat_add, ← htended.next]
    rfl

theorem tended_perform (action : Core.Action) :
    Keeps (Keeping (TendedSince happened d₀)) (perform action : EngineM S E _) := by
  refine exchanges_tended.perform (fun _ h => h.did rfl rfl rfl nofun fun _ hp => ⟨hp, id⟩)
    (fun _ _ => tended_notify _) (fun _ _ => tended_tellFailed _) (fun _ _ => tended_requestSecret _)
    fun profile _ => ?_
  exact keeps_bind (exchanges_tended.request _ _) fun _ =>
    keeps_modify fun _ h => h.same rfl (fun _ => id) rfl

/-! ## The way back to idle -/

theorem Idles.ne_requestSecret {action : Core.Action} (h : Idles S action) (prompt : String) :
    action ≠ .requestSecret prompt := by
  rintro rfl
  obtain ⟨core, draws, q, hq, hmem⟩ := h
  cases Option.some.inj hq
  simp [Connection.goIdle, Connection.disarm] at hmem

/-- No prompt is out. -/
def Unprompted (d : Daemon S E) : Prop := d.pendingSecret = none

theorem admits_unprompted : Admits (Keeping Unprompted : Daemon S E → Daemon S E → Prop) where
  calls _ _ := id
  timers _ _ _ := id
  routes _ _ _ := id
  dhcp _ _ := id
  eapol _ _ := id
  profiles _ _ := id

theorem tells_unprompted : Tells (Keeping Unprompted : Daemon S E → Daemon S E → Prop) where
  sends _ _ _ := id
  unwatched _ := id

theorem unprompted_tellFailed {reason : String} {r : Except String Unit}
    (h : Runs (tellFailed reason) d r d') : Unprompted d' := by
  rw [Unprompted, (runs_tellFailed h).2, afterFailure]
  split <;> rfl

theorem unprompted_perform {action : Core.Action} (h : ∀ prompt, action ≠ .requestSecret prompt) :
    Keeps (Keeping Unprompted) (perform action : EngineM S E _) :=
  admits_unprompted.perform (fun _ => id) (fun _ _ => tells_unprompted.notify _)
    (fun _ _ _ _ _ hrun _ => unprompted_tellFailed hrun) fun prompt heq => absurd heq (h prompt)

/-- What happened is tended, and no prompt is out. -/
def Unasked (happened : List Happening) (d₀ d : Daemon S E) : Prop :=
  TendedSince happened d₀ d ∧ Unprompted d

theorem exchanges_unasked :
    Exchanges (Keeping (Unasked happened d₀) : Daemon S E → Daemon S E → Prop) where
  calls d op h := ⟨exchanges_tended.calls d op h.1, h.2⟩
  timers d timers hsparing h := ⟨exchanges_tended.timers d timers hsparing h.1, h.2⟩
  routes d run hrun h := ⟨exchanges_tended.routes d run hrun h.1, h.2⟩
  dhcp d run h := ⟨exchanges_tended.dhcp d run h.1, h.2⟩
  eapol d eapol h := ⟨exchanges_tended.eapol d eapol h.1, h.2⟩

/-- **An attempt that is given up** voids the prompt before the core is told to disconnect. -/
theorem tended_abort (reason : String) :
    Keeps (Keeping (TendedSince happened d₀)) (abort reason : EngineM S E Unit) := by
  intro d r d' hrun h
  rcases runs_bind.mp hrun with ⟨_, d₁, htell, hreset⟩ | ⟨e, htell, -⟩
  · have hunasked : Unasked happened d₀ d₁ :=
      ⟨tended_tellFailed reason _ _ _ htell h, unprompted_tellFailed htell⟩
    have hperform (action : Core.Action) (hidles : Idles S action) :
        Keeps (Keeping (Unasked happened d₀)) (perform action : EngineM S E _) :=
      fun _ _ _ hrun hd => ⟨tended_perform action _ _ _ hrun hd.1,
        unprompted_perform hidles.ne_requestSecret _ _ _ hrun hd.2⟩
    refine (exchanges_unasked.toCalls.reset_of (fun d core q _ _ h => ?_) hperform
      exchanges_unasked.stopDhcp _ _ _ hreset hunasked).1
    exact ⟨h.1.did rfl rfl rfl nofun fun _ hp => (nomatch h.2.symm.trans hp), h.2⟩
  · exact tended_tellFailed reason _ _ _ htell h

/-! ## Turns -/

/-- **A turn**, given what the poll itself comes to. -/
theorem turn_tended {input : Input} (hpolled : ∀ core q, d.core = some core →
    core.poll (E.draw d.world).1 input = some q → TendedSince happened d₀ { d with
      world := (E.draw d.world).2, core := some q.1, journal := d.journal ++ [.poll input] }) :
    Turn (TendedSince happened d₀) IsScan d input := by
  intro core q x d' hcore hpoll hperform
  have hperformed : TendedSince happened d₀ d' := keeps_performAll (fun action _ =>
    tended_perform action) _ _ _ hperform (hpolled core q hcore hpoll)
  cases x with
  | ok next => exact ⟨hperformed, yields_performAll _ _ _ _ hperform⟩
  | error e =>
    exact fun r d'' habort => tended_abort e _ _ _ habort hperformed

/-- An input that neither is typed nor begins or ends an attempt. -/
def Incidental : Input → Prop
  | .command (.connect _) | .command (.secret _) | .command .disconnect => False
  | _ => True

/-- An input that is not typed, and no attempt begun or ended while a prompt is out, unless the daemon
has been told to stop. -/
theorem turn_tended_other {input : Input} (h : TendedSince happened d₀ d)
    (htyped : ∀ value, input ≠ .command (.secret value))
    (hattempt : d.pendingSecret = none ∨ Incidental input ∨
      Closes happened (.did (.poll input))) :
    Turn (TendedSince happened d₀) IsScan d input := by
  refine turn_tended fun core q _ _ => h.did_of rfl rfl rfl (fun value heq => ?_) fun prompt hp =>
    ⟨hp, fun hvoids => ?_⟩
  · cases heq
    exact htyped value rfl
  · rcases hattempt with hnone | hincidental | hcloses
    · cases hnone.symm.trans hp
    · cases input with
      | command command => cases command <;> first | exact hincidental.elim | exact hvoids.elim
      | _ => exact hvoids.elim
    · exact hcloses

theorem tended_feed {input : Input} (h : TendedSince happened d₀ d)
    (hturn : Turn (TendedSince happened d₀) IsScan d input) {r : Except String Unit}
    (hrun : Runs (feed input) d r d') : TendedSince happened d₀ d' := by
  refine feed_ensures (fun d input hd hscan => ?_) hturn (fun _ => h) hrun
  obtain ⟨scan, rfl⟩ := hscan
  exact turn_tended_other hd nofun (.inr (.inl trivial))

/-! ## Entry points -/

theorem tended_retaken (client : ClientId) (reason : String) (command : Command)
    (hcommand : command = .disconnect ∨ ∃ ssid, command = .connect ssid) :
    Keeps (Keeping (TendedSince happened d₀)) (do
      supersede client reason
      feed (.command command) : EngineM S E Unit) := by
  intro d r d' hrun h
  rcases runs_bind.mp hrun with ⟨_, d₁, hsupersede, hfeed⟩ | ⟨e, hsupersede, -⟩
  · have h₁ := tended_supersede client reason _ _ _ hsupersede h
    have hnone : d₁.pendingSecret = none := by simp [(runs_supersede hsupersede).2]
    refine tended_feed h₁ (turn_tended_other h₁ (fun value heq => ?_) (.inl hnone)) hfeed
    cases heq
    rcases hcommand with hcommand | ⟨_, hcommand⟩ <;> cases hcommand
  · exact tended_supersede client reason _ _ _ hsupersede h

/-- **The entry points but the answer to a prompt.** -/
theorem borne_tended :
    Borne (fun _ => True) (TendedSince happened d₀ : Daemon S E → Prop) where
  allows := exchanges_tended.toAllows
  feed input hinput d r d' hrun h := by
    refine tended_feed h (turn_tended_other h ?_ (.inr (.inl ?_))) hrun
    · rintro _ rfl
      exact hinput
    · cases input with
      | command command => cases command <;> first | exact hinput.elim | trivial
      | _ => trivial
  abort := tended_abort
  rebuilt device := by
    refine keeps_rebuilt exchanges_tended.toAllows device fun profiles d r d' hrun h => ?_
    rw [runs_modify_bind] at hrun
    exact ⟨exchanges_tended.stopDhcp _ _ _ hrun (h.1.same rfl (fun _ => id) rfl),
      (admits_kin.stopDhcp _ _ _ hrun).isIdle⟩
  removed _ h _ := h.same rfl (fun _ => id) rfl
  retaken client _ reason command hcommand _ _ _ _ := tended_retaken client reason command hcommand _ _ _

theorem Tended.woken (h : Tended happened d) {event : Event} (hnext : d'.nextToken = d.nextToken)
    (hpending : ∀ prompt, d'.pendingSecret = some prompt →
      d.pendingSecret = some prompt ∧ ¬ Voids prompt.client (.woken event)) :
    Tended (happened ++ [.woken event]) d' where
  answers := h.answers.concat nofun
  pending prompt hp := by
    obtain ⟨hold, hvoids⟩ := hpending prompt hp
    exact (h.pending prompt hold).concat fun hv => absurd hv hvoids
  counted := h.counted.concat nofun
  next := by
    rw [hnext, tokens_concat]
    exact h.next.trans (by simp [Happening.token])

/-- **The answer to a prompt** is taken from the client that was asked, once. -/
theorem tended_secret (h : Tended happened d) {token : UInt64} {value : String} {client : ClientId}
    {r : Except String Unit} (hrun : Runs (secret token value client) d r d') :
    TendedSince (happened ++ [.woken (.secret token value client)]) d d' := by
  have hwoken : Tended (happened ++ [.woken (.secret token value client)]) d :=
    h.woken rfl fun _ hp => ⟨hp, id⟩
  rw [secret, runs_get_bind] at hrun
  cases hpending : d.pendingSecret with
  | none =>
    rw [hpending] at hrun
    obtain ⟨-, rfl⟩ := runs_throw.mp hrun
    exact hwoken.since rfl
  | some pending =>
    rw [hpending] at hrun
    dsimp only at hrun
    split_ifs at hrun with hasked
    · obtain ⟨rfl, rfl⟩ := hasked
      rw [runs_modify_bind] at hrun
      have htaken : TendedSince (happened ++ [.woken (.secret pending.token value pending.client)]) d
          ({ d with pendingSecret := none } : Daemon S E) :=
        (hwoken.since rfl).same rfl nofun rfl
      refine tended_feed htaken (turn_tended fun core q _ _ => ?_) hrun
      refine ⟨[.poll (.command (.secret value))], rfl, hwoken.answers.concat fun _ heq => ?_, nofun,
        hwoken.counted.concat nofun, ?_⟩
      · cases heq
        exact ⟨happened, _, _, rfl, h.pending _ hpending⟩
      · rw [List.map_singleton, tokens_concat]
        exact hwoken.next.trans (by simp [Happening.token])
    · obtain ⟨-, rfl⟩ := runs_throw.mp hrun
      exact hwoken.since rfl

/-- Of what wakes the daemon, only a client that goes away voids a prompt. -/
theorem leaves_of_voids {client : ClientId} {event : Event} (h : Voids client (.woken event)) :
    ∃ gone, event = .forgetClient gone := by
  cases event with
  | forgetClient gone => exact ⟨gone, rfl⟩
  | _ => exact h.elim

/-- **An event.** -/
theorem tended_handle (h : Tended happened d) {event : Event} {r : Except String Unit}
    (hrun : Runs (handle event) d r d') : TendedSince (happened ++ [.woken event]) d d' := by
  by_cases hleave : ∃ client, event = .forgetClient client
  · obtain ⟨client, rfl⟩ := hleave
    obtain ⟨-, heq⟩ := runs_modify.mp hrun
    refine Tended.since (h.woken (by rw [heq]) fun prompt hp => ?_) (by rw [heq])
    rw [heq] at hp
    dsimp only at hp
    split_ifs at hp with hclient
    exact ⟨hp, fun hvoids => hclient (by rw [hp]; exact decide_eq_true hvoids.symm)⟩
  by_cases hsecret : ∃ token value client, event = .secret token value client
  · obtain ⟨token, value, client, rfl⟩ := hsecret
    exact tended_secret h hrun
  have hwoken : Tended (happened ++ [.woken event]) d := h.woken rfl fun prompt hp =>
    ⟨hp, fun hvoids => hleave (leaves_of_voids hvoids)⟩
  refine borne_tended.handle exchanges_tended (fun event d r d' hrun h => ?_) (fun _ _ => trivial)
    (fun token value client heq => absurd ⟨token, value, client, heq⟩ hsecret)
    (fun client heq => absurd ⟨client, heq⟩ hleave) (fun hstop => keeps_shutDown fun d r d' hrun h => ?_)
    _ _ _ hrun (hwoken.since rfl)
  · have hturn : Turn (TendedSince _ _) IsScan d (.lease event) :=
      turn_tended_other h nofun (.inr (.inl trivial))
    exact tended_feed h hturn hrun
  · -- the daemon has been told to stop: what it disconnects from it joins no more
    have hcloses : Closes (happened ++ [.woken event]) (.did (.poll (.command .disconnect))) :=
      ⟨rfl, List.mem_append_right _ (hstop ▸ List.mem_singleton_self _)⟩
    have hturn : Turn (TendedSince _ _) IsScan d (.command .disconnect) :=
      turn_tended_other h nofun (.inr (.inr hcloses))
    exact tended_feed h hturn hrun

/-! ## Runs -/

theorem runs_step_forgetClient (d : Daemon S E) (now : ℕ) (client : ClientId) :
    Runs (handle (.forgetClient client)) { d with now := now } (.ok ())
      (step d (now, .forgetClient client)).1 :=
  runs_modify.mpr ⟨rfl, rfl⟩

theorem step_tended {past : List (Entry (Daemon S E) (ℕ × Event) Unit)} {woken : ℕ × Event}
    (h : Tended (history past) d) :
    Tended (history (past ++ [entry step d woken])) (step d woken).1 := by
  obtain ⟨now, event⟩ := woken
  have hnow : Tended (history past) ({ d with now := now } : Daemon S E) :=
    ⟨h.answers, h.pending, h.counted, h.next⟩
  have hran {r : Except String Unit}
      (hrun : Runs (handle event) { d with now := now } r (step d (now, event)).1) :
      Tended (history (past ++ [entry step d (now, event)])) (step d (now, event)).1 := by
    obtain ⟨more, hmore, htended⟩ := tended_handle hnow hrun
    rw [history_concat]
    simpa [deeds, hmore] using htended
  by_cases hleave : ∃ client, event = .forgetClient client
  · obtain ⟨client, rfl⟩ := hleave
    exact hran (runs_step_forgetClient d now client)
  rcases step_runs d (now, event) with hsame | ⟨r, hrun⟩
  · have hwoken : Tended (history past ++ [.woken event]) d := h.woken rfl fun _ hp =>
      ⟨hp, fun hvoids => hleave (leaves_of_voids hvoids)⟩
    rw [history_concat]
    simpa [deeds, hsame] using hwoken
  · exact hran hrun

theorem start_tended (world : E.World) (nl rtnl : Bool) :
    Tended [] (start world nl rtnl : Daemon S E) where
  answers before value after heq := by simp at heq
  pending _ hpending := nomatch hpending
  counted := rfl
  next := rfl

/-- **A passphrase reaches the core only as an answer**: of the client that was sent the latest prompt,
to that prompt, which nothing has voided since, an answer and a disconnect included. Tokens count the
prompts. -/
theorem secrets_run (world : E.World) (nl rtnl : Bool) (events : List (ℕ × Event)) :
    AnswersOnly (history (log step (start world nl rtnl : Daemon S E) events)) ∧
      Counted (history (log step (start world nl rtnl : Daemon S E) events)) := by
  have htended : Tended (history (log step (start world nl rtnl : Daemon S E) events)) _ :=
    run_induction (J := fun past d => Tended (history past) d) (G := fun _ _ => True)
      (start_tended world nl rtnl) (fun past d woken h _ => step_tended h) events
      fun _ _ _ _ => trivial
  exact ⟨htended.answers, htended.counted⟩

end Daemon

end Caw
