import Caw.Daemon.Loop
import Caw.Daemon.Watch

/-!
# What becomes of a request

A request is answered at once, or its client waits: for the connection it watches, or for a scan.

* `Reactor.waiting`, `Reactor.tally`: the scans a client waits for, and all that it was answered or
  waits for;
* `runs_finishScans`, **`tally_finished`**: clients that are answered for their scans;
* `hosted_tally`: what others ask for;
* `Retakes`, **`tally_handle`**: a request adds one, unless its client has the watch it takes.
-/

set_option autoImplicit false

namespace Caw

open Caw.Core Daemon

namespace Reactor

open Effect Machine

variable {S : Platform} {E : System S} {r r' : Reactor S E} {client : ClientId}

/-- How many scans a client waits for. -/
def waiting (client : ClientId) (r : Reactor S E) : ℕ := r.scans.countP fun s => s.client = client

/-- The requests of a client that were answered, or that it waits for. -/
def tally (client : ClientId) (r : Reactor S E) : ℕ := account client r.engine + waiting client r

/-! ## The engine inside the loop -/

theorem level_withEngine {α : Type} {m : EngineM S E α} (hm : Keeps (SameAccount client) m) :
    Keeps (Level (tally client)) (withEngine m) :=
  keeps_zoom hm fun r _ h => congrArg (· + waiting client r) h

theorem adds_withEngine {α : Type} {m : EngineM S E α} {n : ℕ}
    (hm : Adds (account client) n m r.engine) : Adds (tally client) n (withEngine m) r := by
  intro x r' h
  obtain ⟨d, hrun, rfl⟩ := runs_zoom.mp h
  have hd := hm x d hrun
  change account client d + waiting client r = account client r.engine + waiting client r + _
  rw [hd]
  exact Nat.add_right_comm _ _ _

theorem adds_reply {message : Message} (h : message.isResponse = true) :
    Adds (tally client) 1 (reply client message) r := by
  refine adds_withEngine fun x d hrun => ?_
  obtain ⟨rfl, rfl⟩ := runs_modify.mp hrun
  simp [account, Done.responds, h, Nat.add_right_comm]

theorem total_withEngine {α : Type} {m : EngineM S E α} (hm : Total m) :
    Total (withEngine m : ReactorM S E α) := total_zoom hm

theorem total_reply (recipient : ClientId) (message : Message) :
    Total (reply recipient message : ReactorM S E Unit) := total_withEngine (total_modify _)

theorem level_reply {recipient : ClientId} {message : Message}
    (h : recipient ≠ client ∨ message.isResponse = false) :
    Keeps (Level (tally client)) (reply recipient message : ReactorM S E Unit) := by
  refine level_withEngine (keeps_modify fun d => ?_)
  rcases h with h | h <;> simp [Level, account, Done.responds, h]

/-! ## Scans that end -/

/-- The loop once a client has been answered for its scans. -/
def finished (response : Message) (r : Reactor S E) (client : ClientId) : Reactor S E :=
  { r with
    scans := r.scans.filter fun s => s.client ≠ client
    engine := { r.engine with timers := r.engine.timers.cancel (.scan client) }.record
      (.send client response) }

theorem runs_finishScan {response : Message} {x : Except String Unit} :
    Runs (finishScan client response) r x r' ↔ x = .ok () ∧ r' = finished response r client := by
  rw [finishScan, runs_modify_bind]
  exact runs_modify (s := r) (f := fun _ => finished response r client)

theorem runs_finishScans {response : Message} {clients : List ClientId} {x : Except String Unit} :
    Runs (finishScans response clients) r x r' ↔
      x = .ok () ∧ r' = clients.foldl (finished response) r := by
  induction clients generalizing r with
  | nil => exact runs_pure
  | cons client rest ih =>
    rw [finishScans, runs_bind, List.foldl_cons]
    constructor
    · rintro (⟨_, r₁, hfinish, hrest⟩ | ⟨e, hfinish, -⟩)
      · obtain ⟨-, rfl⟩ := runs_finishScan.mp hfinish
        exact ih.mp hrest
      · cases (runs_finishScan.mp hfinish).1
    · exact fun h => .inl ⟨(), _, runs_finishScan.mpr ⟨rfl, rfl⟩, ih.mpr h⟩

theorem account_finished {response : Message} (hresponse : response.isResponse = true)
    (clients : List ClientId) : account client (clients.foldl (finished response) r).engine =
      account client r.engine + clients.count client := by
  induction clients generalizing r with
  | nil => rfl
  | cons recipient rest ih =>
    rw [List.foldl_cons, ih, List.count_cons]
    have hone : account client (finished response r recipient).engine =
        account client r.engine + if recipient = client then 1 else 0 := by
      by_cases heq : recipient = client
      · simp [finished, account, watching, responses, Done.responds, hresponse, heq,
          Nat.add_right_comm]
      · simp [finished, account, watching, responses, Done.responds, heq]
    rw [hone]
    by_cases heq : recipient = client
    · simp [heq, Nat.add_assoc, Nat.add_comm]
    · simp [heq]

theorem waiting_finished (response : Message) (clients : List ClientId) :
    waiting client (clients.foldl (finished response) r) =
      if client ∈ clients then 0 else waiting client r := by
  induction clients generalizing r with
  | nil => rfl
  | cons recipient rest ih =>
    have hone : waiting client (finished response r recipient) =
        if recipient = client then 0 else waiting client r := by
      simp only [waiting, finished, List.countP_filter]
      split_ifs with heq
      · rw [List.countP_eq_zero]
        simp [heq]
      · refine List.countP_congr fun s _ => ?_
        simp only [Bool.and_eq_true, decide_eq_true_eq]
        exact ⟨And.left, fun h => ⟨h, h ▸ Ne.symm heq⟩⟩
    rw [List.foldl_cons, ih, hone]
    by_cases heq : recipient = client
    · simp [heq]
    · simp [heq, Ne.symm heq]

/-- **Clients that are answered for all their scans**, and as often. -/
theorem tally_finished (response : Message) {clients : List ClientId}
    (hresponse : response.isResponse = true)
    (hall : client ∈ clients → clients.count client = waiting client r) :
    tally client (clients.foldl (finished response) r) = tally client r := by
  rw [tally, tally, account_finished hresponse, waiting_finished]
  split_ifs with hmem
  · rw [hall hmem]
    rfl
  · rw [List.count_eq_zero_of_not_mem hmem]
    rfl

/-! ## Requests -/

/-- **What others ask for** leaves the tally of a client alone. -/
theorem hosted_tally (n : ℕ) : Hosted (S := S) (E := E) (· ≠ client) (· ≠ client)
    (fun k d => account client d = k) fun r => tally client r = n where
  upheld k := spans_account.upheld fun _ _ h hd => h.trans hd
  admits k := spans_account.admits_keeping fun _ _ h hd => h.trans hd
  lease k event := (spans_account.feed _).mono fun _ _ h hd => h.trans hd
  engine m hm := (level_withEngine fun d x d' h => hm (account client d) d x d' h rfl).mono
    fun _ _ h hr => Eq.trans h hr
  fields r r' hengine _ _ hscans hr := by
    rw [← hr, tally, tally, waiting, waiting, hengine, hscans]
  reply recipient hrecipient message :=
    (level_reply (.inl hrecipient)).mono fun _ _ h hr => Eq.trans h hr
  opens recipient hrecipient ifindex := by
    refine keeps_bind (keeps_modify fun r hr => ?_) fun _ =>
      (level_withEngine (m := arm (.scan recipient) scanTimeout) (keeps_modify fun _ => rfl)).mono
        fun _ _ h hr => Eq.trans h hr
    rw [← hr]
    simp [tally, waiting, List.countP_append, hrecipient]
  finish recipient hrecipient response r x r' h hr := by
    obtain ⟨-, rfl⟩ := runs_finishScan.mp h
    have haccount : account client (finished response r recipient).engine =
        account client r.engine := by
      simp [finished, account, watching, responses, Done.responds, hrecipient]
    have hwaiting : waiting client (finished response r recipient) = waiting client r :=
      (waiting_finished (r := r) _ [recipient]).trans
        (if_neg fun hmem => hrecipient (List.mem_singleton.mp hmem).symm)
    exact (congrArg₂ (· + ·) haccount hwaiting).trans hr

theorem tally_orError {m : ReactorM S E Unit} (hm : Adds (tally client) 1 m r)
    {x : Except String Unit} (h : Runs (orError client m) r x r') :
    tally client r' = tally client r + 1 := by
  obtain ⟨y, r₁, hrun, hrest⟩ := runs_attempt_bind.mp h
  have hsum := hm _ _ hrun
  cases y with
  | ok =>
    obtain ⟨-, rfl⟩ := runs_pure.mp hrest
    exact hsum
  | error e =>
    have hreply := adds_reply rfl x r' hrest
    cases x with
    | ok => exact hreply.trans (congrArg (· + 1) hsum)
    | error e' => exact absurd hrest (total_reply _ _ _ _ _)

theorem tally_answer {α : Type} {m : EngineM S E α} {response : α → Message}
    (hm : Keeps (SameAccount client) m) (hresponse : ∀ a, (response a).isResponse = true)
    {x : Except String Unit} (h : Runs (answer client m response) r x r') :
    tally client r' = tally client r + 1 :=
  tally_orError (adds_bind (level_withEngine hm) fun a _ _ => adds_reply (hresponse a)) h

theorem adds_startScan (port : Option String) : Adds (tally client) 1 (startScan client port) r := by
  have hallows : Allows (SameAccount client : Daemon S E → Daemon S E → Prop) :=
    admits_account.toAllows
  refine adds_bind (level_withEngine (hallows.wirelessInterface _)) fun interface _ _ =>
    adds_bind (level_withEngine (hallows.beginScan _)) fun _ r₁ _ => ?_
  have hbegun : Adds (tally client) 1 (do
      modify fun r => { r with scans := r.scans ++ [{ client, ifindex := interface.ifindex }] } :
        ReactorM S E Unit) r₁ := by
    intro x r₂ h
    obtain ⟨rfl, rfl⟩ := runs_modify.mp h
    simp [tally, waiting, List.countP_append, Nat.add_assoc]
  refine adds_then hbegun (fun _ => ?_) fun _ => ?_
  · exact keeps_bind (level_withEngine (keeps_modify fun _ => rfl)) fun _ => level_reply (.inr rfl)
  · exact total_bind (total_withEngine (total_modify _)) fun _ => total_reply _ _

/-- Carrying out the request comes to taking the watch, and the client has it. -/
def Overtakes (r : Reactor S E) (client : ClientId) : Request → Prop
  | .connect ssid port => ssid ≠ "" ∧ ∃ ifindex d d',
    Runs (wirelessIfindexUp port) r.engine (.ok ifindex) d ∧ Runs (prepare ifindex) d (.ok ()) d' ∧
      d'.watcher = some client
  | .disconnect ssid => r.engine.ssid = some ssid ∧ r.engine.watcher = some client
  | .forget ssid => ∃ deleted d,
    Runs (request (.deleteProfile (octetsOf ssid)) id) r.engine (.ok deleted) d ∧
      d.ssid = some ssid ∧ d.watcher = some client
  | _ => False

/-- The same, where the client may change anything. -/
def Retakes (r : Reactor S E) (client : ClientId) (request : Request) : Prop :=
  ∃ r', Runs (mayChangeState client) r (.ok true) r' ∧ r'.Overtakes client request

theorem mayChangeState_watcher {x : Except String Bool} (h : Runs (mayChangeState client) r x r') :
    r'.engine.watcher = r.engine.watcher := by
  rw [mayChangeState, runs_get_bind] at h
  split_ifs at h
  · rcases runs_bind.mp h with ⟨answer, r₁, hask, hrest⟩ | ⟨e, hask, -⟩
    · obtain ⟨d, hd, rfl⟩ := runs_zoom.mp hask
      obtain ⟨-, rfl⟩ := runs_modifyGet.mp hd
      cases answer with
      | ok allowed => rw [(runs_pure.mp hrest).2]; rfl
      | error e => rw [(runs_pure.mp hrest).2]; rfl
    · obtain ⟨d, hd, -⟩ := runs_zoom.mp hask
      cases (runs_modifyGet.mp hd).1
  · rw [(runs_pure.mp h).2]

theorem Retakes.watching {request : Request} (h : r.Retakes client request) :
    r.engine.watcher = some client := by
  have hupheld (d : Daemon S E) : Upheld (fun _ => False) (Fades d) :=
    spans_fades.upheld fun _ _ h hd => Trans.trans hd h
  obtain ⟨r₁, hallowed, hover⟩ := h
  rw [← mayChangeState_watcher hallowed]
  cases request with
  | connect ssid port =>
    obtain ⟨-, ifindex, d, d', hup, hprepare, hwatcher⟩ := hover
    exact admits_fades.wirelessIfindexUp port _ _ _ hup client
      ((hupheld d).prepare ifindex _ _ _ hprepare (fun _ => id) client hwatcher)
  | disconnect ssid => exact hover.2
  | forget ssid =>
    obtain ⟨deleted, d, hrequest, -, hwatcher⟩ := hover
    exact admits_fades.request _ _ _ _ _ hrequest client hwatcher
  | _ => exact hover.elim

/-- Nothing but the answer to a prompt goes without a response. -/
def awaited (r : Reactor S E) (client : ClientId) : Request → Bool
  | .secret token _ =>
    !r.engine.pendingSecret.any fun prompt => prompt.token = token ∧ prompt.client = client
  | _ => true

theorem total_mayChangeState (client : ClientId) :
    Total (mayChangeState client : ReactorM S E Bool) := by
  refine total_bind total_get fun r => ?_
  split_ifs
  · refine total_bind (total_withEngine (total_modifyGet _)) fun x => ?_
    cases x with
    | ok => exact total_pure _
    | error => exact total_pure _
  · exact total_pure _

theorem tally_secret {token : UInt64} {value : String} {x : Except String Unit}
    (h : Runs (orError client (withEngine (secret token value client))) r x r') :
    tally client r' = tally client r + if r.awaited client (.secret token value) then 1 else 0 := by
  by_cases hasked : ∃ prompt, r.engine.pendingSecret = some prompt ∧ prompt.token = token ∧
      prompt.client = client
  · obtain ⟨prompt, hprompt, hmine⟩ := hasked
    have hawaited : r.awaited client (.secret token value) = false := by
      simp [awaited, hprompt, hmine]
    rw [hawaited]
    have hanswered {y : Except String Unit} {d : Daemon S E}
        (h : Runs (secret token value client) r.engine y d) :
        y = .ok () ∧ account client d = account client r.engine := by
      rw [secret, runs_get_bind, hprompt] at h
      dsimp only at h
      rw [if_pos hmine, runs_modify_bind] at h
      have haccount : account client d =
          account client ({ r.engine with pendingSecret := none } : Daemon S E) :=
        spans_account.feed _ _ _ _ h
      cases y with
      | ok => exact ⟨rfl, haccount⟩
      | error e => exact absurd h (total_feed _ _ _ _)
    obtain ⟨y, r₁, hrun, hrest⟩ := runs_attempt_bind.mp h
    obtain ⟨d, hd, rfl⟩ := runs_zoom.mp hrun
    obtain ⟨rfl, haccount⟩ := hanswered hd
    obtain ⟨-, rfl⟩ := runs_pure.mp hrest
    exact congrArg (· + waiting client r) haccount
  · have hawaited : r.awaited client (.secret token value) = true := by
      cases hprompt : r.engine.pendingSecret with
      | none => simp [awaited, hprompt]
      | some prompt =>
        have hother : ¬ (prompt.token = token ∧ prompt.client = client) := fun hmine =>
          hasked ⟨prompt, hprompt, hmine⟩
        simpa [awaited, hprompt] using not_and_or.mp hother
    rw [hawaited]
    refine tally_orError (adds_withEngine fun y d hd => ?_) h
    rw [secret, runs_get_bind] at hd
    cases hprompt : r.engine.pendingSecret with
    | none =>
      rw [hprompt] at hd
      exact adds_throw _ _ _ hd
    | some prompt =>
      rw [hprompt] at hd
      dsimp only at hd
      rw [if_neg fun hmine => hasked ⟨prompt, hprompt, hmine⟩] at hd
      exact adds_throw _ _ _ hd

theorem tally_forget {ssid : String} {x : Except String Unit}
    (hover : ¬ r.Overtakes client (.forget ssid))
    (h : Runs (handlePermitted client (.forget ssid)) r x r') :
    tally client r' = tally client r + 1 := by
  refine tally_orError (fun y r₁ hrun => ?_) h
  have hforgotten {y : Except String Bool} {d : Daemon S E}
      (h : Runs (Daemon.forget ssid client) r.engine y d) :
      account client d = account client r.engine + if y = .ok true then 1 else 0 :=
    account_forget (fun deleted d' hrequest hssid hwatcher =>
      hover ⟨deleted, d', hrequest, hssid, hwatcher⟩) h
  rcases runs_bind.mp hrun with ⟨begun, r₂, hforget, hrest⟩ | ⟨e, hforget, rfl⟩
  · obtain ⟨d, hd, rfl⟩ := runs_zoom.mp hforget
    have hsum := congrArg (· + waiting client r) (hforgotten hd)
    cases begun with
    | true =>
      obtain ⟨rfl, rfl⟩ := runs_pure.mp hrest
      exact hsum.trans (Nat.add_right_comm _ _ _)
    | false => exact (adds_reply rfl y r₁ hrest).trans (congrArg (· + _) hsum)
  · obtain ⟨d, hd, rfl⟩ := runs_zoom.mp hforget
    exact congrArg (· + waiting client r) (hforgotten hd)

/-- **A request that is carried out** is answered, or its client waits. -/
theorem tally_handlePermitted {request : Request} {x : Except String Unit}
    (hover : ¬ r.Overtakes client request) (h : Runs (handlePermitted client request) r x r') :
    tally client r' = tally client r + if r.awaited client request then 1 else 0 := by
  have hallows : Allows (SameAccount client : Daemon S E → Daemon S E → Prop) :=
    admits_account.toAllows
  cases request with
  | listPorts => exact tally_answer (hallows.portsSummary _) (fun _ => rfl) h
  | portInfo name => exact tally_answer (hallows.portsSummary _) (fun _ => rfl) h
  | portUp name up =>
    refine tally_orError (adds_bind (fun r x r' hup => ?_) fun _ _ _ => adds_reply rfl) h
    exact (hosted_tally (tally client r)).setPortUp _ _ _ _ _ hup rfl
  | scan port => exact tally_orError (adds_startScan port) h
  | connect ssid port =>
    rw [handlePermitted, runs_modify_bind] at h
    refine tally_orError (r := { r with autoPaused := false })
      (adds_bind (level_withEngine (hallows.wirelessIfindexUp _)) fun ifindex r₁ hup =>
        adds_withEngine (adds_connect fun hssid d' hprepare hwatcher => ?_)) h
    obtain ⟨d, hrun, rfl⟩ := runs_zoom.mp hup
    exact hover ⟨hssid, ifindex, d, d', hrun, hprepare, hwatcher⟩
  | disconnect ssid =>
    have hleave : Adds (tally client) 1 (do
        withEngine (disconnect ssid client)
        modify fun r => { r with autoPaused := true } : ReactorM S E Unit) r :=
      adds_then (adds_withEngine (adds_disconnect fun hssid hwatcher => hover ⟨hssid, hwatcher⟩))
        (fun _ => keeps_modify fun _ => rfl) fun _ => total_modify _
    exact tally_orError hleave h
  | forget ssid => exact tally_forget hover h
  | status => exact tally_answer hallows.status (fun _ => rfl) h
  | secret token value => exact tally_secret h
  | shutdown =>
    have hstop : Adds (tally client) 1 (do
        reply client .ok
        modify fun r => { r with stopping := true } : ReactorM S E Unit) r :=
      adds_then (adds_reply rfl) (fun _ => keeps_modify fun _ => rfl) fun _ => total_modify _
    have htotal : Total (do
        reply client .ok
        modify fun r => { r with stopping := true } : ReactorM S E Unit) :=
      total_bind (total_reply _ _) fun _ => total_modify _
    cases x with
    | ok => exact hstop _ _ h
    | error e => exact absurd h (htotal _ _ _)

/-- **A request** adds one, unless it answers a prompt. -/
theorem tally_handle {request : Request} {x : Except String Unit}
    (hretakes : ¬ r.Retakes client request) (h : Runs (handle client request) r x r') :
    tally client r' = tally client r + if r.awaited client request then 1 else 0 := by
  rw [handle] at h
  split_ifs at h with hchanging
  · have hawaited (r : Reactor S E) : r.awaited client request = true := by
      cases request <;> first | rfl | cases hchanging
    rw [hawaited r, if_pos rfl]
    have hlevel {x : Except String Bool} {r₁ : Reactor S E}
        (h : Runs (mayChangeState client) r x r₁) : tally client r₁ = tally client r :=
      (hosted_tally (tally client r)).mayChangeState client _ _ _ h rfl
    rcases runs_bind.mp h with ⟨allowed, r₁, hallowed, hrest⟩ | ⟨e, hfail, -⟩
    · rw [← hlevel hallowed]
      cases allowed with
      | true =>
        have hhandled := tally_handlePermitted
          (fun hover => hretakes ⟨r₁, hallowed, hover⟩) hrest
        rwa [hawaited r₁, if_pos rfl] at hhandled
      | false =>
        have hreply := adds_reply rfl x r' hrest
        cases x with
        | ok => exact hreply
        | error e => exact absurd hrest (total_reply _ _ _ _ _)
    · exact absurd hfail (total_mayChangeState client _ _ _)
  · refine tally_handlePermitted (fun hover => hchanging ?_) h
    cases request <;> first | rfl | exact hover.elim

end Reactor

end Caw
