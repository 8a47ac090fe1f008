import Caw.Crypto.SaeChecked
import Caw.Crypto.SaeRun

/-!
# An exchange that cannot panic

What the source expects of its own values in an SAE exchange holds, as long as the station's element has
coordinates.

* `stationElement`: the point a start encodes;
* `SaeProvider.InRange`: the retransmission counter, the token and the last frame of an exchange;
* `InRange.sync_lt`: the counter fits its octet;
* **`startCall_handled`**, **`onFrame_handled`**, `onTimeout_handled`: a call does not panic, a frame it
  puts on the air has a body, and unless it fails it leaves the exchange in range.
-/

set_option autoImplicit false

namespace Caw

open Crypto (Error Fault)
open Sae

namespace SaeProvider

variable {C : Curve} {P : Primitives} {p : SaeProvider C}

variable (P) in
/-- The element of the station's commit. -/
def stationElement (p : SaeProvider C) (ctx : AuthContext) : C.Point :=
  -((commitScalars C p.seed).2 •
    passwordElement C P (passwordToken C P ctx.ssid p.password) ctx.ownMac ctx.bssid)

/-- The values of an exchange that are counted or sent: they fit their octets. -/
structure InRange (p : SaeProvider C) : Prop where
  /-- One more timeout can be counted. -/
  sync : p.sync ≤ syncMax
  /-- The length octet of a token element counts the extension octet too. -/
  token : ∀ token, p.token = some token → token.length + 1 < 2 ^ 8
  /-- What is retransmitted has a body behind the algorithm number. -/
  sent : p.UnderWay → 2 ≤ p.lastSent.length

/-- A call that does not panic: unless it fails, the exchange stays in range, and a frame it puts on
the air has a body. -/
structure Handled (r : SaeProvider C × Except Fault Step) : Prop where
  total : r.2 ≠ .error .panic
  kept : (∃ step, r.2 = .ok step) → r.1.InRange
  sent : ∀ frame, r.2 = .ok (.send frame) → 2 ≤ frame.length

theorem inRange_withSeed (password : String) (seed : Octets seedLen) :
    (withSeed password seed : SaeProvider C).InRange := by
  refine ⟨(show (0 : UInt8) ≤ syncMax by decide), by rintro _ ⟨⟩, ?_⟩
  rintro (⟨commit, hst⟩ | ⟨session, hst⟩) <;> cases hst

theorem handled_error {e : Error} : Handled (p, .error (.error e)) :=
  ⟨by simp, by rintro ⟨_, ⟨⟩⟩, by rintro _ ⟨⟩⟩

theorem handled_wait (h : p.InRange) : Handled (p, .ok .wait) :=
  ⟨by simp, fun _ => h, by rintro _ ⟨⟩⟩

/-! ## Lengths -/

theorem two_le_commitFrame (token : Option Bytes) (commit : Commit C) :
    2 ≤ (commitFrame token commit).length := by
  simp [commitFrame, authHeader]

theorem two_le_confirmFrame (sendConfirm : UInt16) (session : Session) :
    2 ≤ (confirmFrame P sendConfirm session).length := by
  simp [confirmFrame, authHeader]

/-! ## Calls -/

/-- **A start does not panic** on an element that has coordinates. -/
theorem startCall_handled {ctx : AuthContext}
    (hcoordinates : ∀ q : C.Point, C.coordinates q = none → q = 0) (h : p.InRange)
    (helement : p.stationElement P ctx ≠ 0) :
    Handled (p.startCall P ctx) := by
  unfold startCall
  cases hstart : p.start P ctx with
  | ok r =>
    obtain ⟨p', step⟩ := r
    obtain ⟨-, commit, -, rfl, rfl⟩ := start_eq_ok hstart
    refine ⟨by simp, fun _ => ⟨(show (0 : UInt8) ≤ syncMax by decide), h.token,
      fun _ => two_le_commitFrame _ _⟩, ?_⟩
    rintro _ ⟨⟩
    exact two_le_commitFrame _ _
  | error fault =>
    cases fault with
    | error e => exact handled_error
    | panic =>
      -- the one panic is in the encoding of the element
      unfold start at hstart
      split at hstart
      · split_ifs at hstart
        · cases hstart
        rcases Except.bind_eq_error.mp hstart with hcommit | ⟨commit, -, hpure⟩
        · rcases Except.bind_eq_error.mp hcommit with hencode | ⟨bytes, -, hpure⟩
          · unfold encodeElement at hencode
            split at hencode
            · cases hencode
            · rename_i hnone
              exact absurd (hcoordinates _ hnone) helement
          · cases hpure
        · cases hpure
      · cases hstart

theorem onCommit_ne_panic {commit : Commit C} {body : Bytes}
    (hcoordinates : ∀ q : C.Point, C.coordinates q = none → q = 0) :
    p.onCommit P commit body ≠ .error .panic := by
  have hlift : ∀ {α : Type} (x : Except Error α), x.mapError Fault.error ≠ .error .panic := by
    intro α x hx
    obtain ⟨e, -, he⟩ := Except.mapError_eq_error.mp hx
    cases he
  intro hpanic
  rcases Except.bind_eq_error.mp hpanic with hx | ⟨⟨scalarB, elementB⟩, -, hpanic⟩
  · exact hlift _ hx
  simp only at hpanic
  split_ifs at hpanic
  · cases hpanic
  rcases Except.bind_eq_error.mp hpanic with hx | ⟨peerScalar, -, hpanic⟩
  · exact hlift _ hx
  rcases Except.bind_eq_error.mp hpanic with hx | ⟨peerElement, -, hpanic⟩
  · exact hlift _ hx
  split_ifs at hpanic with hzero
  · cases hpanic
  rcases Except.bind_eq_error.mp hpanic with hx | ⟨k, -, hpure⟩
  · -- the shared point has been compared with the identity
    unfold xCoordinate at hx
    split at hx
    · cases hx
    · rename_i hnone
      exact hzero (hcoordinates _ hnone)
  · cases hpure

theorem onConfirm_ne_panic {session : Session} {body : Bytes} :
    p.onConfirm P session body ≠ .error .panic := by
  intro hpanic
  unfold onConfirm at hpanic
  simp only at hpanic
  split_ifs at hpanic <;> cases hpanic

theorem onTokenRequest_ne_panic {commit : Commit C} {body : Bytes} :
    p.onTokenRequest commit body ≠ .error .panic := by
  intro hpanic
  rcases Except.bind_eq_error.mp hpanic with hx | ⟨token, -, hpure⟩
  · obtain ⟨e, -, he⟩ := Except.mapError_eq_error.mp hx
    cases he
  · cases hpure

theorem handled_settle {x : Except Fault (SaeProvider C × Step)} (hx : x ≠ .error .panic)
    (hok : ∀ p' step, x = .ok (p', step) → Handled (p', .ok step)) : Handled (p.settle x) := by
  cases x with
  | ok r => exact hok r.1 r.2 rfl
  | error fault =>
    cases fault with
    | error e => exact handled_error
    | panic => exact absurd rfl hx

/-- **No frame makes it panic**, whatever is in it. -/
theorem onFrame_handled (hcoordinates : ∀ q : C.Point, C.coordinates q = none → q = 0)
    (h : p.InRange) (frame : Bytes) : Handled (p.onFrame P frame) := by
  unfold onFrame
  split
  · exact handled_error
  · rename_i auth hauth
    by_cases hadmissible : (!admissible auth) = true
    · rw [if_pos hadmissible]
      exact handled_error
    rw [if_neg hadmissible]
    split
    · rename_i commit hst
      split_ifs
      · refine handled_settle onTokenRequest_ne_panic fun p' step hok => ?_
        obtain ⟨token, htoken, hp⟩ := Except.bind_eq_ok.mp hok
        obtain ⟨rfl, rfl⟩ := Prod.mk.inj (Except.ok.inj hp)
        have hfits := length_parseToken (Except.mapError_eq_ok.mp htoken)
        refine ⟨by simp, fun _ => ⟨(show (0 : UInt8) ≤ syncMax by decide), ?_,
          fun _ => two_le_commitFrame _ _⟩, ?_⟩
        · rintro _ ⟨⟩
          exact hfits
        · rintro _ ⟨⟩
          exact two_le_commitFrame _ _
      · refine handled_settle (onCommit_ne_panic hcoordinates) fun p' step hok => ?_
        obtain ⟨_, _, _, _, k, -, -, -, -, -, rfl, rfl⟩ := onCommit_eq_ok hok
        refine ⟨by simp, fun _ => ⟨(show (0 : UInt8) ≤ syncMax by decide), h.token,
          fun _ => two_le_confirmFrame _ _⟩, ?_⟩
        rintro _ ⟨⟩
        exact two_le_confirmFrame _ _
      · exact handled_wait h
    · rename_i session hst
      split_ifs
      · refine handled_settle onConfirm_ne_panic fun p' step hok => ?_
        obtain ⟨rfl, rfl⟩ := onConfirm_eq_ok hok
        refine ⟨by simp, fun _ => ⟨h.sync, h.token, ?_⟩, by rintro _ ⟨⟩⟩
        rintro (⟨commit, hst'⟩ | ⟨session', hst'⟩) <;> cases hst'
      · exact handled_wait h
    · exact handled_wait h
    · exact handled_error
    · exact handled_error

theorem InRange.sync_lt (h : p.InRange) : p.sync.toNat + 1 < 2 ^ 8 := by
  have hle : p.sync.toNat ≤ 5 := UInt8.le_iff_toNat_le.mp h.sync
  omega

/-- **A timeout counts, or ends the exchange.** -/
theorem onTimeout_handled (h : p.InRange) : Handled p.onTimeout := by
  have hretransmit : p.UnderWay → Handled (if p.sync + 1 > syncMax
      then ({ p with sync := p.sync + 1 }, .error (.error .authFailed))
      else ({ p with sync := p.sync + 1 }, .ok (.send p.lastSent))) := by
    intro hway
    split_ifs with hsync
    · exact handled_error
    · refine ⟨by simp, fun _ => ⟨UInt8.not_lt.mp hsync, h.token, fun _ => h.sent hway⟩, ?_⟩
      rintro _ ⟨⟩
      exact h.sent hway
  unfold onTimeout
  split
  · rename_i commit hst
    exact hretransmit (.inl ⟨commit, hst⟩)
  · rename_i session hst
    exact hretransmit (.inr ⟨session, hst⟩)
  · exact handled_wait h
  · exact handled_error
  · exact handled_error

end SaeProvider

end Caw
