import Caw.Crypto.Sae
import Caw.Lib.Checked

/-!
# Frames of an exchange that cannot panic

The frames an SAE exchange is fed, with every index, range and `expect` of the source checked.

* `Crypto.faulted`: a checked computation, whose panic is a fault;
* `Sae.parseAuthChecked`, `parseCommitChecked`, `parseTokenChecked`: the parsers;
* `SaeProvider.onCommitChecked`, `onConfirmChecked`, `onTokenRequestChecked`, `onFrameChecked`: the
  handlers;
* **`Sae.parseCommitChecked_eq`**, `parseAuthChecked_eq`, `parseTokenChecked_eq`: behind their length
  guards frames are read within their bounds;
* `Sae.passwordScalar_lt`: the value that binds the password token is a scalar, and not zero;
* **`SaeProvider.onFrameChecked_eq`**: no read of a frame panics, whatever its octets.
-/

set_option autoImplicit false

namespace Caw

open Bytes
open Crypto (Error Fault)
open Sae

/-- What a checked computation comes to. -/
def Crypto.faulted {α : Type} (x : Checked Error α) : Except Fault α :=
  match x.run with
  | none => .error .panic
  | some (.ok a) => .ok a
  | some (.error e) => .error (.error e)

theorem Crypto.faulted_of {α : Type} (x : Except Error α) :
    faulted (.of x) = x.mapError Fault.error := by
  cases x <;> rfl

/-! ## Parsers -/

namespace Sae

/-- The little-endian number in two octets of a slice. -/
def le16Checked (off : ℕ) (b : Bytes) : Option ℕ := do
  let bytes ← readRange b off (off + 2)
  let lo ← readAt bytes 0
  let hi ← readAt bytes 1
  return ofLE [lo, hi]

theorem le16Checked_of_le {off : ℕ} {b : Bytes} (h : off + 2 ≤ b.length) :
    le16Checked off b = some (le16 off b) := by
  have hread : (b.take (off + 2)).drop off = (slice off 2 b).toList := by
    rw [slice_toList off 2 b h, List.drop_take, Nat.add_sub_cancel_left]
  have htwo : ∀ v : Octets 2, (do
      let lo ← readAt v.toList 0
      let hi ← readAt v.toList 1
      return ofLE [lo, hi]) = some (ofLE v.toList) := by
    intro v
    match v with
    | ⟨[lo, hi], _⟩ => rfl
  rw [le16Checked, readRange_of_le (Nat.le_add_right _ _) h, hread]
  exact htwo (slice off 2 b)

/-- The fixed authentication fields, and what is behind them. -/
def parseAuthChecked (frame : Bytes) : Checked Error AuthFrame :=
  if frame.length < 6 then throw .malformed
  else do
    let algorithm ← le16Checked 0 frame
    if algorithm ≠ authAlgSae then throw .malformed
    else
      let seq ← le16Checked 2 frame
      let status ← le16Checked 4 frame
      let body ← readFrom frame 6
      return { seq, status, body }

theorem parseAuthChecked_eq (frame : Bytes) : parseAuthChecked frame = .of (parseAuth frame) := by
  unfold parseAuthChecked parseAuth
  split_ifs with hshort halgorithm
  · rfl
  · rw [le16Checked_of_le (by omega), Checked.read_bind, if_pos halgorithm]
    rfl
  · rw [le16Checked_of_le (by omega), Checked.read_bind, if_neg halgorithm,
      le16Checked_of_le (by omega), le16Checked_of_le (by omega), readFrom_of_le (by omega)]
    rfl

/-- Group, scalar and element of a commit body. -/
def parseCommitChecked (body : Bytes) : Checked Error (Octets scalarLen × Octets elementLen) :=
  if body.length < 2 + scalarLen + elementLen then throw .malformed
  else do
    let group ← le16Checked 0 body
    if group ≠ groupP256 then throw .authFailed
    else
      let scalar ← readArray scalarLen body 2
      let element ← readArray elementLen body (2 + scalarLen)
      return (scalar, element)

/-- **Behind its length guard** a commit is read within its bounds. -/
theorem parseCommitChecked_eq (body : Bytes) :
    parseCommitChecked body = .of (parseCommit body) := by
  unfold parseCommitChecked parseCommit
  split_ifs with hshort hgroup
  · rfl
  · rw [le16Checked_of_le (by omega), Checked.read_bind, if_pos hgroup]
    rfl
  · rw [le16Checked_of_le (by omega), Checked.read_bind, if_neg hgroup,
      readArray_of_le (by omega), readArray_of_le (by omega)]
    rfl

/-- The token of a token request. -/
def parseTokenChecked (body : Bytes) : Checked Error Bytes :=
  if body.length < 2 + 3 then throw .malformed
  else do
    let element ← readFrom body 2
    let len ← readAt element 1
    let eid ← readAt element 0
    let room ← checkedSub element.length 2
    if eid ≠ eidExtension ∨ len = 0 ∨ room < len.toNat then throw .malformed
    else
      let ext ← readAt element 2
      if ext ≠ eidExtAntiClogging then throw .malformed
      else readRange element 3 (2 + len.toNat)

theorem parseTokenChecked_eq (body : Bytes) : parseTokenChecked body = .of (parseToken body) := by
  unfold parseTokenChecked parseToken
  split_ifs with hshort
  · rfl
  have hlength : (body.drop 2).length = body.length - 2 := List.length_drop
  rw [readFrom_of_le (by omega), Checked.read_bind]
  match hdrop : body.drop 2 with
  | [] | [_] | [_, _] =>
    rw [hdrop] at hlength
    simp only [List.length_nil, List.length_cons] at hlength
    omega
  | eid :: len :: ext :: rest =>
    have hlen : readAt (eid :: len :: ext :: rest) 1 = some len := rfl
    have heid : readAt (eid :: len :: ext :: rest) 0 = some eid := rfl
    have hext : readAt (eid :: len :: ext :: rest) 2 = some ext := rfl
    have hroom : checkedSub (eid :: len :: ext :: rest).length 2 = some (rest.length + 1) :=
      if_pos (by simp)
    rw [hlen, Checked.read_bind, heid, Checked.read_bind, hroom, Checked.read_bind]
    dsimp only
    split_ifs with hbad
    · rfl
    · rw [hext, Checked.read_bind, if_pos ‹_›]
      rfl
    rw [hext, Checked.read_bind, if_neg ‹_›]
    rw [not_or, not_or, not_lt] at hbad
    have hpos : 0 < len.toNat := Nat.pos_of_ne_zero fun hzero => hbad.2.1 (UInt8.toNat_inj.mp hzero)
    obtain ⟨k, hk⟩ := Nat.exists_eq_succ_of_ne_zero hpos.ne'
    rw [readRange_of_le (by omega) (by simp only [List.length_cons]; omega), hk,
      show 2 + k.succ = k + 1 + 1 + 1 by omega]
    rfl

/-- **The value that binds the password token** to two addresses lies in `[1, order - 1]`, and it is
reduced by a modulus that is not zero. -/
theorem passwordScalar_lt (C : Curve) (n : ℕ) :
    C.order - 1 ≠ 0 ∧ n % (C.order - 1) + 1 < C.order := by
  have horder : 2 ≤ C.order := C.prime.out.two_le
  have hlt : n % (C.order - 1) < C.order - 1 := Nat.mod_lt _ (by omega)
  omega

end Sae

/-! ## Handlers -/

namespace SaeProvider

variable {C : Curve} (P : Primitives)

/-- The peer's commit. -/
def onCommitChecked (p : SaeProvider C) (commit : Commit C) (body : Bytes) :
    Except Fault (SaeProvider C × Step) := do
  let (peerScalarBytes, peerElementBytes) ← Crypto.faulted (parseCommitChecked body)
  if peerScalarBytes = commit.scalarBytes ∧ peerElementBytes = commit.elementBytes then
    .error (.error .authFailed)
  else
    let peerScalar ← (decodeScalar C peerScalarBytes).mapError Fault.error
    let peerElement ← (decodeElement C peerElementBytes).mapError Fault.error
    let kPoint := sharedPoint commit peerScalar peerElement
    if kPoint = 0 then .error (.error .authFailed)
    else
      let k ← xCoordinate C kPoint
      let session := newSession P commit peerScalarBytes peerElementBytes peerScalar k
      let frame := confirmFrame P (nextConfirm p.sendConfirm) session
      return (p.afterCommit P (context commit peerScalar) session, .send frame)

/-- The peer's confirm. -/
def onConfirmChecked (p : SaeProvider C) (session : Session) (body : Bytes) :
    Except Fault (SaeProvider C × Step) :=
  if body.length < 2 + hashLen then .error (.error .malformed)
  else Crypto.faulted do
    let peerSc ← readArray 2 body 0
    let verifier := confirmHash P session.kck peerSc session.peerScalarBytes
      session.peerElementBytes session.ownScalarBytes session.ownElementBytes
    let claimed ← readArray hashLen body 2
    if verifier = claimed then
      return ({ p with state := .accepted, lastSent := [] }, .done session.pmk)
    else throw .authFailed

/-- A commit frame, whose token is expected to fit its length octet. -/
def commitFrameChecked (token : Option Bytes) (commit : Commit C) : Except Fault Bytes :=
  if token.any fun token => 256 ≤ token.length + 1 then .error .panic
  else .ok (commitFrame token commit)

/-- A token request. -/
def onTokenRequestChecked (p : SaeProvider C) (commit : Commit C) (body : Bytes) :
    Except Fault (SaeProvider C × Step) := do
  let token ← Crypto.faulted (parseTokenChecked body)
  let frame ← commitFrameChecked (some token) commit
  return (p.afterTokenRequest commit token, .send frame)

/-- An authentication frame of the peer, with every read checked. -/
def onFrameChecked (p : SaeProvider C) (frame : Bytes) : SaeProvider C × Except Fault Step :=
  match Crypto.faulted (parseAuthChecked frame) with
  | .error e => (p, .error e)
  | .ok auth =>
    if !admissible auth then (p, .error (.error .authFailed))
    else
      match p.state with
      | .committed commit =>
        if auth.seq = seqCommit then
          if auth.status = statusAntiClogging then
            p.settle (p.onTokenRequestChecked commit auth.body)
          else p.settle (p.onCommitChecked P commit auth.body)
        else (p, .ok .wait)
      | .confirmed session =>
        if auth.seq = seqConfirm then p.settle (p.onConfirmChecked P session auth.body)
        else (p, .ok .wait)
      | .accepted => (p, .ok .wait)
      | .idle => (p, .error (.error .protocol))
      | .failed => (p, .error (.error .authFailed))

/-- **A token that is parsed fits the length octet it is sent with.** -/
theorem length_parseToken {body token : Bytes} (h : parseToken body = .ok token) :
    token.length + 1 < 2 ^ 8 := by
  unfold parseToken at h
  split_ifs at h
  split at h
  · rename_i eid len ext rest hdrop
    split_ifs at h with hlen
    obtain rfl := Except.ok.inj h
    have hlt : len.toNat < 2 ^ 8 := len.toNat_lt
    have hpos : 0 < len.toNat := by
      refine Nat.pos_of_ne_zero fun hzero => hlen (.inr (.inl ?_))
      exact UInt8.toNat_inj.mp hzero
    have htake : (rest.take (len.toNat - 1)).length ≤ len.toNat - 1 := List.length_take_le _ _
    omega
  · cases h

variable {P} {p : SaeProvider C}

theorem onCommitChecked_eq {commit : Commit C} {body : Bytes} :
    p.onCommitChecked P commit body = p.onCommit P commit body := by
  rw [onCommitChecked, parseCommitChecked_eq, Crypto.faulted_of, onCommit]

theorem onConfirmChecked_eq {session : Session} {body : Bytes} :
    p.onConfirmChecked P session body = p.onConfirm P session body := by
  unfold onConfirmChecked onConfirm
  split_ifs
  · rfl
  rw [readArray_of_le (by omega), readArray_of_le (by omega), Checked.read_bind]
  dsimp only
  rw [Checked.read_bind]
  split_ifs <;> rfl

theorem onTokenRequestChecked_eq {commit : Commit C} {body : Bytes} :
    p.onTokenRequestChecked commit body = p.onTokenRequest commit body := by
  rw [onTokenRequestChecked, onTokenRequest, parseTokenChecked_eq, Crypto.faulted_of]
  cases htoken : parseToken body with
  | error e => rfl
  | ok token =>
    have hfits := length_parseToken htoken
    have hshort : ¬ ((some token).any fun token => 256 ≤ token.length + 1) = true := by
      simp only [Option.any_some, decide_eq_true_eq]
      omega
    change (commitFrameChecked (some token) commit >>= _) = _
    rw [commitFrameChecked, if_neg hshort]
    rfl

/-- **No read of a frame panics**, whatever its octets. -/
theorem onFrameChecked_eq (frame : Bytes) : p.onFrameChecked P frame = p.onFrame P frame := by
  unfold onFrameChecked onFrame
  rw [parseAuthChecked_eq, Crypto.faulted_of]
  cases parseAuth frame with
  | error e => rfl
  | ok auth =>
    dsimp only [Except.mapError]
    cases p.state with
    | committed commit =>
      dsimp only
      rw [onTokenRequestChecked_eq, onCommitChecked_eq]
    | confirmed session =>
      dsimp only
      rw [onConfirmChecked_eq]
    | _ => rfl

end SaeProvider

end Caw
