import Caw.Crypto.SaeRun

/-!
# What ends an SAE exchange

Which errors are final, and which frames a finished exchange ignores.

* `Ended`, `Overflows`, `Over`: an error of an exchange that has started, and that nothing more comes
  of it;
* `Survives`: the faults an exchange under way outlives;
* `over_of_closed`, **`not_over_of_underWay`**: a closed exchange stays closed, one under way does not;
* **`errors_final_iff`**: the errors of a run are final exactly when the run has no such fault;
* **`late_commit_ignored_iff`**: a commit that comes late is ignored exactly when its status is one a
  commit may have.
-/

set_option autoImplicit false

namespace Caw

open Crypto (Error Fault)
open Machine (Entry entry log exec Along)
open Sae

namespace SaeProvider

variable {C : Curve} {P : Primitives} {p : SaeProvider C} {i : Input} {bytes : Bytes} {auth : AuthFrame}

/-! ## Errors -/

/-- A frame or a timeout of an exchange that has started is answered with an error. -/
def Ended (p : SaeProvider C) (i : Input) (o : Except Fault Step) : Prop :=
  p.state ≠ .idle ∧ (∀ ctx, i ≠ .start ctx) ∧ ∃ e, o = .error e

/-- The retransmission counter is at its largest value when it is to be increased. -/
def Overflows (p : SaeProvider C) (i : Input) : Prop := i = .timeout ∧ p.UnderWay ∧ p.sync = 255

variable (P) in
/-- Nothing comes of the exchange any more, whatever it is fed. -/
def Over (p : SaeProvider C) : Prop :=
  ∀ inputs, ∀ e ∈ log (SaeProvider.call P) p inputs, Silent e.output ∧ ¬ Overflows e.pre e.input

/-- A fault of an exchange under way that does not fail it: a frame that is no commit, token request
or confirm of a success, or a timeout past the last retransmission. -/
def Survives (p : SaeProvider C) : Input → Prop
  | .start _ => False
  | .frame bytes => p.UnderWay ∧ ∀ auth, parseAuth bytes = .ok auth → admissible auth = false
  | .timeout => p.UnderWay ∧ syncMax < p.sync + 1

theorem UnderWay.started (h : p.UnderWay) : p.state ≠ .idle := by
  rcases h with ⟨c, hst⟩ | ⟨v, hst⟩ <;> simp [hst]

theorem onTimeout_underWay (h : p.UnderWay) : p.onTimeout = ({ p with sync := p.sync + 1 },
    if syncMax < p.sync + 1 then .error (.error .authFailed) else .ok (.send p.lastSent)) := by
  rcases h with ⟨c, hst⟩ | ⟨v, hst⟩
  · simp only [onTimeout, hst]
    split_ifs <;> rfl
  · simp only [onTimeout, hst]
    split_ifs <;> rfl

theorem onFrame_dropped (h : ∀ auth, parseAuth bytes = .ok auth → admissible auth = false) :
    ∃ e, p.onFrame P bytes = (p, .error e) := by
  unfold onFrame
  cases hauth : parseAuth bytes with
  | error e => exact ⟨_, rfl⟩
  | ok auth =>
    refine ⟨.error .authFailed, ?_⟩
    simp only [h auth hauth, Bool.not_false, if_true]

theorem exists_admissible (h : ¬ ∀ auth, parseAuth bytes = .ok auth → admissible auth = false) :
    ∃ auth, parseAuth bytes = .ok auth ∧ admissible auth = true := by
  simpa using h

/-- An exchange that has failed, or has returned its PMK, does not change. -/
theorem call_closed (h : p.state = .failed ∨ p.state = .accepted) (i : Input) :
    ∃ o, p.call P i = (p, o) ∧ Silent o := by
  cases i with
  | start ctx =>
    refine ⟨.error (.error .protocol), ?_, trivial⟩
    rcases h with hst | hst <;> simp only [call, startCall, start, hst]
  | timeout =>
    rcases h with hst | hst
    · exact ⟨.error (.error .authFailed), by simp only [call, onTimeout, hst], trivial⟩
    · exact ⟨.ok .wait, by simp only [call, onTimeout, hst], trivial⟩
  | frame bytes =>
    by_cases hdrop : ∀ auth, parseAuth bytes = .ok auth → admissible auth = false
    · obtain ⟨e, he⟩ := onFrame_dropped (P := P) (p := p) hdrop
      exact ⟨.error e, he, trivial⟩
    · obtain ⟨auth, hauth, hadm⟩ := exists_admissible hdrop
      rcases h with hst | hst
      · exact ⟨.error (.error .authFailed), by simp [call, onFrame, hauth, hadm, hst], trivial⟩
      · exact ⟨.ok .wait, by simp [call, onFrame, hauth, hadm, hst], trivial⟩

/-- **A closed exchange stays closed.** -/
theorem over_of_closed (h : p.state = .failed ∨ p.state = .accepted) : Over P p := by
  intro inputs
  induction inputs with
  | nil => exact fun e hmem => nomatch hmem
  | cons i inputs ih =>
    obtain ⟨o, hsame, hsilent⟩ := call_closed (P := P) h i
    intro e hmem
    rw [Machine.log_cons_of_eq hsame] at hmem
    rcases List.mem_cons.mp hmem with rfl | hmem
    · refine ⟨hsilent, fun hover => ?_⟩
      rcases hover.2.1 with ⟨c, hst⟩ | ⟨v, hst⟩ <;> rcases h with hst' | hst' <;>
        cases hst.symm.trans hst'
    · exact ih e hmem

theorem Over.call (h : Over P p) (i : Input) : Over P (p.call P i).1 :=
  fun inputs e hmem => h (i :: inputs) e (List.mem_cons_of_mem _ hmem)

/-- **An exchange under way is not over**: enough timeouts and it retransmits, or its counter
overflows. -/
theorem not_over_of_underWay (h : p.UnderWay) : ¬ Over P p := by
  -- by induction on how far the counter is from its largest value
  induction hn : 255 - p.sync.toNat generalizing p with
  | zero =>
    intro hover
    have hsync : p.sync = 255 := by
      have := p.sync.toNat_lt
      exact UInt8.toNat_inj.mp (by change p.sync.toNat = 255; omega)
    exact (hover [.timeout] _ List.mem_cons_self).2 ⟨rfl, h, hsync⟩
  | succ n ih =>
    intro hover
    have hcall := onTimeout_underWay h
    obtain ⟨hsilent, -⟩ := hover [.timeout] _ List.mem_cons_self
    have hpost : (p.call P .timeout).1 = { p with sync := p.sync + 1 } := by
      rw [call, hcall]
    refine ih (p := { p with sync := p.sync + 1 }) h ?_ (hpost ▸ hover.call .timeout)
    change 255 - (p.sync + 1).toNat = n
    rw [UInt8.toNat_add]
    have := p.sync.toNat_lt
    change 255 - (p.sync.toNat + 1) % 256 = n
    omega

theorem settle_failed {r : Except Fault (SaeProvider C × Step)} {e : Fault}
    (h : (p.settle r).2 = .error e) : (p.settle r).1.state = .failed := by
  cases r with
  | error e' => rfl
  | ok q => cases h

/-- A frame that is looked at, and answered with an error, fails the exchange. -/
theorem onFrame_failed {e : Fault} (h : p.UnderWay) (hauth : parseAuth bytes = .ok auth)
    (hadm : admissible auth = true) (he : (p.onFrame P bytes).2 = .error e) :
    (p.onFrame P bytes).1.state = .failed := by
  unfold onFrame at he ⊢
  simp only [hauth, hadm, Bool.not_true, Bool.false_eq_true, if_false] at he ⊢
  rcases h with ⟨commit, hst⟩ | ⟨session, hst⟩
  · simp only [hst] at he ⊢
    split_ifs at he ⊢
    · exact settle_failed he
    · exact settle_failed he
  · simp only [hst] at he ⊢
    split_ifs at he ⊢
    exact settle_failed he

theorem closed_or_underWay (p : SaeProvider C) (h : p.state ≠ .idle) :
    (p.state = .failed ∨ p.state = .accepted) ∨ p.UnderWay := by
  cases hst : p.state with
  | idle => exact absurd hst h
  | committed commit => exact .inr (.inl ⟨commit, hst⟩)
  | confirmed session => exact .inr (.inr ⟨session, hst⟩)
  | accepted => exact .inl (.inr rfl)
  | failed => exact .inl (.inl rfl)

/-- **When an error is final.** -/
theorem over_of_ended_iff (p : SaeProvider C) (i : Input) :
    (Ended p i (p.call P i).2 → Over P (p.call P i).1) ↔ ¬ Survives p i := by
  constructor
  · rintro h hsurvives
    cases i with
    | start ctx => exact hsurvives
    | frame bytes =>
      obtain ⟨hway, hdrop⟩ := hsurvives
      obtain ⟨e, he⟩ := onFrame_dropped (P := P) (p := p) hdrop
      refine not_over_of_underWay (P := P) hway ?_
      have hended : Ended p (.frame bytes) (p.call P (.frame bytes)).2 :=
        ⟨hway.started, by rintro ctx ⟨⟩, e, by rw [call, he]⟩
      simpa only [call, he] using h hended
    | timeout =>
      obtain ⟨hway, hlimit⟩ := hsurvives
      have hcall := onTimeout_underWay hway
      rw [if_pos hlimit] at hcall
      have hended : Ended p .timeout (p.call P .timeout).2 :=
        ⟨hway.started, by rintro ctx ⟨⟩, _, by rw [call, hcall]⟩
      refine not_over_of_underWay (P := P) (p := { p with sync := p.sync + 1 }) hway ?_
      simpa only [call, hcall] using h hended
  · rintro hsurvives ⟨hstarted, hstart, e, he⟩
    rcases p.closed_or_underWay hstarted with hclosed | hway
    · obtain ⟨o, hsame, -⟩ := call_closed (P := P) hclosed i
      rw [hsame]
      exact over_of_closed hclosed
    · cases i with
      | start ctx => exact absurd rfl (hstart ctx)
      | timeout =>
        rw [call, onTimeout_underWay hway, if_neg fun hlimit => hsurvives ⟨hway, hlimit⟩] at he
        cases he
      | frame bytes =>
        obtain ⟨auth, hauth, hadm⟩ := exists_admissible fun hdrop => hsurvives ⟨hway, hdrop⟩
        exact over_of_closed (.inl (onFrame_failed hway hauth hadm he))

/-- **The errors of a run are final** exactly when no step of it is a fault that an exchange under way
survives. -/
theorem errors_final_iff (P : Primitives) (password : String) (seed : Octets seedLen)
    (inputs : List Input) :
    Along (fun _ e => Ended e.pre e.input e.output → Over P e.post)
        (log (SaeProvider.call P) (withSeed password seed : SaeProvider C) inputs) ↔
      Along (fun _ e => ¬ Survives e.pre e.input)
        (log (SaeProvider.call P) (withSeed password seed : SaeProvider C) inputs) := by
  simp only [Machine.along_log_iff, Machine.entry_pre, Machine.entry_input, Machine.entry_output,
    Machine.entry_post, over_of_ended_iff]

/-! ## Late commits -/

/-- **A commit that comes late**, whatever it carries, is ignored exactly when its status is one a
commit or a token request has. -/
theorem late_commit_ignored_iff (P : Primitives) (p : SaeProvider C)
    (hlate : p.state = .accepted ∨ ∃ session, p.state = .confirmed session) (bytes : Bytes)
    (auth : AuthFrame) (hauth : parseAuth bytes = .ok auth) (hseq : auth.seq = seqCommit) :
    p.onFrame P bytes = (p, .ok .wait) ↔
      auth.status = statusH2e ∨ auth.status = statusAntiClogging := by
  constructor
  · intro h
    by_contra hstatus
    have hdrop (auth' : AuthFrame) (hauth' : parseAuth bytes = .ok auth') :
        admissible auth' = false := by
      cases hauth.symm.trans hauth'
      simpa [admissible, hseq, seqCommit, seqConfirm] using hstatus
    obtain ⟨e, he⟩ := onFrame_dropped (P := P) (p := p) hdrop
    rw [he] at h
    cases h
  · intro hstatus
    have hadm : admissible auth = true := by
      simpa [admissible, hseq, seqCommit, seqConfirm] using hstatus
    rcases hlate with hst | ⟨session, hst⟩
    · simp [onFrame, hauth, hadm, hst]
    · simp [onFrame, hauth, hadm, hst, hseq, seqCommit, seqConfirm]

end SaeProvider

/-! ## A sample exchange -/

namespace SaeProvider

/-- A provider of the sample curve. -/
def sampleProvider : SaeProvider .five := withSeed "password" (.zero _)

/-- The peer it authenticates with. -/
def samplePeer : AuthContext where
  ssid := [110]
  bssid := .zero 6
  ownMac := .zero 6
  akm := .sae

/-- The commit of the sample access point. -/
def sampleCommit : Bytes :=
  authHeader seqCommit statusH2e ++ (Bytes.toLE 2 groupP256 ++ (Bytes.toBE 32 2 ++
    (Bytes.toBE 32 2 ++ Bytes.toBE 32 0)))

/-- A commit that refuses the group, with nothing after the fixed fields. -/
def sampleRefusal : Bytes := authHeader seqCommit 77

theorem sample_started : ∃ commit, sampleProvider.call .sample (.start samplePeer) =
    (sampleProvider.afterStart commit, .ok (.send (commitFrame none commit))) := by
  have hok : (sampleProvider.start .sample samplePeer).isOk = true := by decide +kernel
  cases hr : sampleProvider.start .sample samplePeer with
  | error e => rw [hr] at hok; cases hok
  | ok r =>
    obtain ⟨p', step⟩ := r
    obtain ⟨-, commit, -, rfl, rfl⟩ := start_eq_ok hr
    exact ⟨commit, by rw [call, startCall, hr]; rfl⟩

theorem parseAuth_sampleRefusal :
    parseAuth sampleRefusal = .ok { seq := seqCommit, status := 77, body := [] } := by
  have h := parseAuth_authHeader seqCommit 77 [] (by decide) (by decide)
  rwa [List.append_nil] at h

/-- Refused, the exchange still retransmits its commit at the next timeout. -/
theorem refused_retransmits :
    ¬ Along (fun _ e => Ended e.pre e.input e.output → Over .sample e.post)
        (log (SaeProvider.call .sample) sampleProvider [.start samplePeer, .frame sampleRefusal]) ∧
      ∃ commit, (log (SaeProvider.call .sample) sampleProvider
        [.start samplePeer, .frame sampleRefusal, .timeout]).map Entry.output =
          [.ok (.send commit), .error (.error .authFailed), .ok (.send commit)] := by
  obtain ⟨commit, hstart⟩ := sample_started
  have hrefused : (sampleProvider.afterStart commit).call .sample (.frame sampleRefusal) =
      (sampleProvider.afterStart commit, .error (.error .authFailed)) := by
    rw [call, onFrame, parseAuth_sampleRefusal]
    rfl
  have hway : (sampleProvider.afterStart commit).UnderWay := .inl ⟨commit, rfl⟩
  rw [Machine.log_cons_of_eq hstart, Machine.log_cons_of_eq hrefused,
    Machine.log_cons_of_eq hstart, Machine.log_cons_of_eq hrefused]
  refine ⟨fun hfinal => ?_, commitFrame none commit, rfl⟩
  exact not_over_of_underWay hway
    (hfinal [_] _ [] rfl ⟨hway.started, by rintro ctx ⟨⟩, _, rfl⟩)

/-- The exchange once both commits are in. -/
def sampleConfirmed : SaeProvider .five :=
  exec (SaeProvider.call .sample) sampleProvider [.start samplePeer, .frame sampleCommit]

theorem sample_confirmed : ∃ session, sampleConfirmed.state = .confirmed session := by
  have hheld : sampleConfirmed.state.ctorIdx = 2 := by decide +kernel
  cases hst : sampleConfirmed.state with
  | confirmed session => exact ⟨session, rfl⟩
  | _ => simp [hst, State.ctorIdx] at hheld

/-- A second commit of the access point changes nothing. -/
theorem late_commit_ignored_sample :
    sampleConfirmed.onFrame .sample sampleCommit = (sampleConfirmed, .ok .wait) :=
  (late_commit_ignored_iff .sample sampleConfirmed (.inr sample_confirmed) sampleCommit _
    (parseAuth_authHeader seqCommit statusH2e _ (by decide) (by decide)) rfl).mpr (.inl rfl)

/-- A refusal injected at the same point is answered with an error. -/
theorem late_refusal_fails : (∃ session, sampleConfirmed.state = .confirmed session) ∧
    parseAuth sampleRefusal = .ok { seq := seqCommit, status := 77, body := [] } ∧
    sampleConfirmed.onFrame .sample sampleRefusal =
      (sampleConfirmed, .error (.error .authFailed)) := by
  refine ⟨sample_confirmed, parseAuth_sampleRefusal, ?_⟩
  rw [onFrame, parseAuth_sampleRefusal]
  rfl

end SaeProvider

end Caw
