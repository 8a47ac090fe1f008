import Caw.Netlink.Message

/-!
# A request and its replies

`Socket::request` sends a message and hands every reply to a handler until the kernel ends the exchange.

* `Netlink.Socket.serve`, `recv`, `receive`, `request`: the loop, over one datagram and over what is
  received;
* `Netlink.Framed`, `Netlink.Arrives`: datagrams cut out of whole messages, what arrives in them and what
  the buffer leaves of it;
* `Netlink.calls`, `Netlink.ending`: the replies up to the item that ends the exchange, and that item;
* `Netlink.Item.Success`, `Netlink.Answered`: the kernel reported success, and the request says no more
  than that;
* `Netlink.Told`: what the buffer leaves tells the exchange as it was;
* **`Netlink.receive_eq`**: the handler is called on the replies that are left, in order, each once;
* **`Netlink.request_iff`**: a request is answered truthfully exactly when what is left tells the
  exchange: where the datagrams fit the buffer, unless a dump ends with a negative status.
-/

set_option autoImplicit false

namespace Caw

open Nl80211 (align)

namespace Netlink

/-- A message that says nothing. -/
def nlmsgNoop : UInt16 := 1
/-- A status: an error number, or an acknowledgement. -/
def nlmsgError : UInt16 := 2
/-- The end of a dump. -/
def nlmsgDone : UInt16 := 3
/-- Messages were lost. -/
def nlmsgOverrun : UInt16 := 4

/-- The flag of a reply that is one of several. -/
def nlmFMulti : UInt16 := 2

/-- The octets a datagram is received into. -/
def bufLen : ℕ := 64 * 1024

/-- What one `recv` meets: an error, or the next datagram of the socket. -/
inductive Received where
  | failed (errno : ℕ)
  | datagram (bytes : Bytes)
deriving DecidableEq

/-- The `i32` at the start of a payload. -/
def statusOf (payload : Bytes) : Option Int32 :=
  if payload.length < 4 then none
  else some (UInt32.ofNat (Bytes.ofLE (payload.take 4))).toInt32

/-! ## The loop -/

namespace Socket

variable {σ : Type} (handler : Message → σ → Except Error Unit × σ) (wantSeq : UInt32)

/-- One message of a datagram: the result, when the exchange ends with it. -/
def onMessage (msg : Message) (s : σ) : Option (Except Error Unit) × σ :=
  if msg.seq ≠ wantSeq then (none, s)
  else if msg.kind = nlmsgDone then (some (.ok ()), s)
  else if msg.kind = nlmsgError then
    match statusOf msg.payload with
    | none => (some (.error .truncated), s)
    | some code => (some (if code = 0 then .ok () else .error (.kernel (-code))), s)
  else if msg.kind = nlmsgNoop then (none, s)
  else if msg.kind = nlmsgOverrun then (some (.error .overrun), s)
  else
    match handler msg s with
    | (.error e, s) => (some (.error e), s)
    | (.ok (), s) => (if msg.flags &&& nlmFMulti ≠ 0 then none else some (.ok ()), s)

/-- The messages of a datagram. -/
def serve : ℕ → Bytes → σ → Option (Except Error Unit) × σ
  | 0, _, s => (none, s)
  | fuel + 1, rest, s =>
    if rest.length < hdrLen then (none, s)
    else
      match Message.parse rest with
      | .error e => (some (.error e), s)
      | .ok msg =>
        match onMessage handler wantSeq msg s with
        | (some result, s) => (some result, s)
        | (none, s) => serve fuel (rest.drop (min (align msg.len.toNat) rest.length)) s

/-- `recv` without flags: the octets of a datagram that fit the buffer, the rest of it lost, and the
length that it reports, which is that of these octets. -/
def recv (bytes : Bytes) : Bytes × ℕ := (bytes.take bufLen, (bytes.take bufLen).length)

/-- The datagrams one after another; none while the exchange has not ended. -/
def receive : List Received → σ → Option (Except Error Unit) × σ
  | [], s => (none, s)
  | .failed errno :: _, s => (some (.error (.io errno)), s)
  | .datagram bytes :: more, s =>
    let (buf, actual) := recv bytes
    if buf.length < actual then (some (.error .overrun), s)
    else
      match serve handler wantSeq buf.length buf s with
      | (some result, s) => (some result, s)
      | (none, s) => receive more s

/-- The sequence number of a request. -/
def wantSeqOf (msg : Bytes) : Option UInt32 :=
  if msg.length < 12 then none
  else some (UInt32.ofNat (Bytes.ofLE (Bytes.slice 8 4 msg).toList))

/-- Send a request and feed every reply to the handler. -/
def request (sent : Except Error Unit) (msg : Bytes) (received : List Received) (s : σ) :
    Option (Except Error Unit) × σ :=
  match wantSeqOf msg with
  | none => (some (.error .truncated), s)
  | some wantSeq =>
    match sent with
    | .error e => (some (.error e), s)
    | .ok () => receive handler wantSeq received s

end Socket

/-! ## What arrives -/

/-- A datagram cut out of whole messages, each padded to four octets but for the last. -/
inductive Framed : List Message → Bytes → Prop
  | nil : Framed [] []
  | last {msg : Message} (pad : Bytes) : msg.WellFormed →
      msg.len.toNat + pad.length ≤ align msg.len.toNat → Framed [msg] (msg.octets ++ pad)
  | cons {msg : Message} {msgs : List Message} {rest : Bytes} (pad : Bytes) : msg.WellFormed →
      msg.len.toNat + pad.length = align msg.len.toNat → Framed msgs rest →
      Framed (msg :: msgs) (msg.octets ++ (pad ++ rest))

/-- What a request meets: a message, one that the buffer cuts off, or a `recv` that fails. -/
inductive Item where
  | message (msg : Message)
  | cut
  | failed (errno : ℕ)
deriving DecidableEq

/-- What the first `n` octets of a datagram leave of its messages: those that lie in them whole, and of
the next one that it is cut off, where its header lies in them. -/
def within : ℕ → List Message → List Item
  | _, [] => []
  | n, msg :: msgs =>
    if msg.len.toNat ≤ n then .message msg :: within (n - align msg.len.toNat) msgs
    else if hdrLen ≤ n then [.cut]
    else []

/-- What arrives with the datagrams, however the messages are cut into them, and what the buffer leaves
of it. -/
inductive Arrives : List Received → List Item → List Item → Prop
  | nil : Arrives [] [] []
  | failed (errno : ℕ) {more : List Received} {items left : List Item} : Arrives more items left →
      Arrives (.failed errno :: more) (.failed errno :: items) (.failed errno :: left)
  | datagram {bytes : Bytes} {msgs : List Message} {more : List Received} {items left : List Item} :
      Framed msgs bytes → Arrives more items left →
      Arrives (.datagram bytes :: more) (msgs.map Item.message ++ items) (within bufLen msgs ++ left)

/-- No datagram is longer than the buffer. -/
def Fits (received : List Received) : Prop :=
  ∀ bytes, Received.datagram bytes ∈ received → bytes.length ≤ bufLen

section Exchange

variable (wantSeq : UInt32)

/-- A reply of this exchange: its sequence number, and no control message. -/
def Item.reply : Item → Option Message
  | .message msg =>
    if msg.seq = wantSeq ∧ msg.kind ∉ [nlmsgNoop, nlmsgError, nlmsgDone, nlmsgOverrun] then some msg
    else none
  | _ => none

/-- What ends the exchange: a control message of it other than a no-op, a reply that is not one of
several, a message cut off, or a `recv` that fails. -/
def Item.ends : Item → Bool
  | .message msg =>
    msg.seq = wantSeq ∧ (msg.kind ∈ [nlmsgError, nlmsgDone, nlmsgOverrun] ∨
      (msg.kind ≠ nlmsgNoop ∧ msg.flags &&& nlmFMulti = 0))
  | _ => true

/-- The item that ends the exchange. -/
def ending (items : List Item) : Option Item := items.find? (Item.ends wantSeq)

/-- The replies up to the end of the exchange. -/
def calls (items : List Item) : List Message :=
  (items.takeWhile (fun item => !item.ends wantSeq) ++ (ending wantSeq items).toList).filterMap
    (Item.reply wantSeq)

/-- A dump the kernel ended with a negative status. -/
def Item.FailedDump : Item → Prop
  | .message msg => msg.kind = nlmsgDone ∧ ∃ status ∈ statusOf msg.payload, status < 0
  | _ => False

/-- The kernel reported success: an acknowledgement without an error, the end of a dump without one,
or a reply of its own. -/
def Item.Success : Item → Prop
  | .message msg =>
    (msg.kind = nlmsgError → statusOf msg.payload = some 0) ∧
      ¬(Item.message msg).FailedDump ∧ msg.kind ≠ nlmsgOverrun
  | _ => False

/-- What is left tells the exchange as it was: the replies up to its end are the same, and its end passes
for a success, as any end of a dump does, exactly when the kernel reported one. -/
def Told (items left : List Item) : Prop :=
  calls wantSeq left = calls wantSeq items ∧
    Option.Rel (fun taken item => (taken.Success ∨ taken.FailedDump) ↔ item.Success)
      (ending wantSeq left) (ending wantSeq items)

end Exchange

/-- The handler's results on messages one after another, up to its first error. -/
def feed {σ : Type} (handler : Message → σ → Except Error Unit × σ) :
    List Message → σ → Except Error Unit × σ
  | [], s => (.ok (), s)
  | msg :: msgs, s =>
    match handler msg s with
    | (.error e, s) => (.error e, s)
    | (.ok (), s) => feed handler msgs s

/-- A request answered truthfully: the handler is called on the replies of the exchange in order, each
once, up to its first error; the request returns that error, or else what ended the exchange, and
success only where the kernel reported it. -/
def Answered {σ : Type} (handler : Message → σ → Except Error Unit × σ) (wantSeq : UInt32)
    (items : List Item) (s : σ) (result : Option (Except Error Unit) × σ) : Prop :=
  match feed handler (calls wantSeq items) s with
  | (.error e, s) => result = (some (.error e), s)
  | (.ok (), s) => result.2 = s ∧
    match ending wantSeq items with
    | none => result.1 = none
    | some item => ∃ answer, result.1 = some answer ∧ (answer = .ok () ↔ item.Success)

/-! ## The loop over what arrives -/

section Loop

variable {σ : Type} (handler : Message → σ → Except Error Unit × σ) (wantSeq : UInt32)

/-- What a request returns for the item that ends its exchange. -/
def Item.result : Item → Except Error Unit
  | .message msg =>
    if msg.kind = nlmsgError then
      match statusOf msg.payload with
      | none => .error .truncated
      | some code => if code = 0 then .ok () else .error (.kernel (-code))
    else if msg.kind = nlmsgOverrun then .error .overrun
    else .ok ()
  | .cut => .error .truncated
  | .failed errno => .error (.io errno)

/-- One item: the result, when the exchange ends with it. -/
def onItem (item : Item) (s : σ) : Option (Except Error Unit) × σ :=
  match item with
  | .message msg => Socket.onMessage handler wantSeq msg s
  | item => (some item.result, s)

/-- The items one after another, up to the end of the exchange. -/
def onItems : List Item → σ → Option (Except Error Unit) × σ
  | [], s => (none, s)
  | item :: items, s =>
    match onItem handler wantSeq item s with
    | (some result, s) => (some result, s)
    | (none, s) => onItems items s

theorem onItems_append (l m : List Item) (s : σ) :
    onItems handler wantSeq (l ++ m) s =
      match onItems handler wantSeq l s with
      | (some result, s) => (some result, s)
      | (none, s) => onItems handler wantSeq m s := by
  induction l generalizing s with
  | nil => rfl
  | cons item l ih =>
    rw [List.cons_append, onItems, onItems]
    rcases onItem handler wantSeq item s with ⟨_ | result, s'⟩
    · exact ih s'
    · rfl

theorem feed_append (l m : List Message) (s : σ) :
    feed handler (l ++ m) s =
      match feed handler l s with
      | (.error e, s) => (.error e, s)
      | (.ok (), s) => feed handler m s := by
  induction l generalizing s with
  | nil => rfl
  | cons msg l ih =>
    rw [List.cons_append, feed, feed]
    rcases handler msg s with ⟨_ | _, s'⟩
    · rfl
    · exact ih s'

/-- **One item**: the handler is called on it when it is a reply. -/
theorem onItem_eq (item : Item) (s : σ) :
    onItem handler wantSeq item s =
      match feed handler (item.reply wantSeq).toList s with
      | (.error e, s) => (some (.error e), s)
      | (.ok (), s) => (if item.ends wantSeq then some item.result else none, s) := by
  cases item with
  | message msg =>
    by_cases hseq : msg.seq = wantSeq
    · by_cases hdone : msg.kind = nlmsgDone
      · simp [onItem, Socket.onMessage, Item.reply, Item.ends, Item.result, feed, hseq, hdone,
          nlmsgDone, nlmsgError, nlmsgNoop, nlmsgOverrun]
      by_cases herror : msg.kind = nlmsgError
      · cases hstatus : statusOf msg.payload <;>
          simp [onItem, Socket.onMessage, Item.reply, Item.ends, Item.result, feed, hseq, herror,
            hstatus, nlmsgDone, nlmsgError, nlmsgNoop, nlmsgOverrun]
      by_cases hnoop : msg.kind = nlmsgNoop
      · simp [onItem, Socket.onMessage, Item.reply, Item.ends, feed, hseq, hnoop, nlmsgDone,
          nlmsgError, nlmsgNoop, nlmsgOverrun]
      by_cases hoverrun : msg.kind = nlmsgOverrun
      · simp [onItem, Socket.onMessage, Item.reply, Item.ends, Item.result, feed, hseq, hoverrun,
          nlmsgDone, nlmsgError, nlmsgNoop, nlmsgOverrun]
      · have hreply : (Item.message msg).reply wantSeq = some msg := by
          simp [Item.reply, hseq, hdone, herror, hnoop, hoverrun]
        rw [hreply]
        rcases hhandler : handler msg s with ⟨_ | _, s'⟩
        · simp [onItem, Socket.onMessage, feed, hseq, hdone, herror, hnoop, hoverrun, hhandler]
        · by_cases hmulti : msg.flags &&& nlmFMulti = 0 <;>
            simp [onItem, Socket.onMessage, Item.ends, Item.result, feed, hseq, hdone, herror, hnoop,
              hoverrun, hhandler, hmulti]
    · simp [onItem, Socket.onMessage, Item.reply, Item.ends, feed, hseq]
  | cut => rfl
  | failed errno => rfl

theorem calls_cons (item : Item) (items : List Item) :
    calls wantSeq (item :: items) =
      (item.reply wantSeq).toList ++ if item.ends wantSeq then [] else calls wantSeq items := by
  simp only [calls, ending, List.takeWhile_cons, List.find?_cons]
  cases hends : item.ends wantSeq with
  | false =>
    cases hreply : item.reply wantSeq <;> simp [hreply]
  | true =>
    cases hreply : item.reply wantSeq <;> simp [hreply]

/-- **The replies in order, each once**, and then what ended the exchange. -/
theorem onItems_eq (items : List Item) (s : σ) :
    onItems handler wantSeq items s =
      match feed handler (calls wantSeq items) s with
      | (.error e, s) => (some (.error e), s)
      | (.ok (), s) => ((ending wantSeq items).map Item.result, s) := by
  induction items generalizing s with
  | nil => rfl
  | cons item items ih =>
    rw [onItems, onItem_eq, calls_cons, feed_append, ending, List.find?_cons]
    rcases feed handler (item.reply wantSeq).toList s with ⟨_ | _, s'⟩
    · rfl
    · cases hends : item.ends wantSeq with
      | false => exact ih s'
      | true => rfl

/-! ## The loop over datagrams -/

theorem serve_octets {msg : Message} (hwell : msg.WellFormed) (tail : Bytes) {fuel : ℕ}
    (hfuel : (msg.octets ++ tail).length ≤ fuel) (s : σ) :
    ∃ fuel', (msg.octets ++ tail).length ≤ fuel' + hdrLen ∧
      Socket.serve handler wantSeq fuel (msg.octets ++ tail) s =
        match Socket.onMessage handler wantSeq msg s with
        | (some result, s) => (some result, s)
        | (none, s) => Socket.serve handler wantSeq fuel' ((msg.octets ++ tail).drop
            (min (align msg.len.toNat) (msg.octets ++ tail).length)) s := by
  have hlen := Message.length_octets hwell
  have hhdr : hdrLen ≤ msg.len.toNat := hwell ▸ Nat.le_add_right _ _
  have hpos : 0 < hdrLen := by decide
  have hlong : hdrLen ≤ (msg.octets ++ tail).length := by
    rw [List.length_append, hlen]
    omega
  obtain ⟨fuel', rfl⟩ := Nat.exists_eq_succ_of_ne_zero (by omega : fuel ≠ 0)
  refine ⟨fuel', by omega, ?_⟩
  rw [Socket.serve, if_neg (Nat.not_lt.mpr hlong), parse_octets hwell]

theorem serve_short {bytes : Bytes} {fuel : ℕ} (h : bytes.length < hdrLen) (s : σ) :
    Socket.serve handler wantSeq fuel bytes s = (none, s) := by
  cases fuel with
  | zero => rfl
  | succ fuel => rw [Socket.serve, if_pos h]

/-- A datagram whose next message is cut off ends the exchange with an error. -/
theorem serve_cut {msg : Message} (hwell : msg.WellFormed) (tail : Bytes) {n fuel : ℕ}
    (hhdr : hdrLen ≤ n) (hcut : n < msg.len.toNat)
    (hfuel : ((msg.octets ++ tail).take n).length ≤ fuel) (s : σ) :
    Socket.serve handler wantSeq fuel ((msg.octets ++ tail).take n) s =
      (some (.error .truncated), s) := by
  have hlen := Message.length_octets hwell
  have htake : ((msg.octets ++ tail).take n).length = n := by
    rw [List.length_take, List.length_append]
    omega
  have hpos : 0 < hdrLen := by decide
  obtain ⟨fuel', rfl⟩ := Nat.exists_eq_succ_of_ne_zero (by omega : fuel ≠ 0)
  rw [Socket.serve, if_neg (by omega), List.take_append_of_le_length (by omega),
    parse_cut hwell hhdr hcut]

theorem serve_whole {msg : Message} (hwell : msg.WellFormed) (tail : Bytes) {n fuel : ℕ}
    (hwhole : msg.len.toNat ≤ n) (hfuel : ((msg.octets ++ tail).take n).length ≤ fuel) (s : σ) :
    ∃ fuel', (((msg.octets ++ tail).drop (align msg.len.toNat)).take
        (n - align msg.len.toNat)).length ≤ fuel' ∧
      Socket.serve handler wantSeq fuel ((msg.octets ++ tail).take n) s =
        match onItem handler wantSeq (.message msg) s with
        | (some result, s) => (some result, s)
        | (none, s) => Socket.serve handler wantSeq fuel'
            (((msg.octets ++ tail).drop (align msg.len.toNat)).take (n - align msg.len.toNat)) s := by
  have hlen := Message.length_octets hwell
  have hhdr : hdrLen ≤ msg.len.toNat := hwell ▸ Nat.le_add_right _ _
  have halign := le_align msg.len.toNat
  have htake : (msg.octets ++ tail).take n =
      msg.octets ++ tail.take (n - msg.len.toNat) := by
    rw [List.take_append, List.take_of_length_le (by omega), hlen]
  have hrest : ((msg.octets ++ tail).take n).drop
      (min (align msg.len.toNat) ((msg.octets ++ tail).take n).length) =
        ((msg.octets ++ tail).drop (align msg.len.toNat)).take (n - align msg.len.toNat) := by
    rw [← List.drop_eq_drop_min, List.drop_take]
  rw [htake] at hfuel hrest ⊢
  obtain ⟨fuel', hfuel', heq⟩ := serve_octets handler wantSeq hwell _ hfuel s
  refine ⟨fuel', ?_, ?_⟩
  · rw [← hrest, List.length_drop]
    simp only [List.length_append, hlen] at hfuel' ⊢
    omega
  · rw [heq, hrest]
    rfl

/-- **One datagram**, as much of it as was received. -/
theorem serve_framed {msgs : List Message} {bytes : Bytes} (h : Framed msgs bytes) {n fuel : ℕ}
    (hfuel : (bytes.take n).length ≤ fuel) (s : σ) :
    Socket.serve handler wantSeq fuel (bytes.take n) s = onItems handler wantSeq (within n msgs) s := by
  -- a message at the front, and what follows it
  have hfront : ∀ {msg : Message} {msgs : List Message} {tail : Bytes} {n fuel : ℕ} {s : σ},
      msg.WellFormed → ((msg.octets ++ tail).take n).length ≤ fuel →
      (∀ {fuel : ℕ} (s : σ), (((msg.octets ++ tail).drop (align msg.len.toNat)).take
          (n - align msg.len.toNat)).length ≤ fuel →
        Socket.serve handler wantSeq fuel (((msg.octets ++ tail).drop (align msg.len.toNat)).take
            (n - align msg.len.toNat)) s =
          onItems handler wantSeq (within (n - align msg.len.toNat) msgs) s) →
      Socket.serve handler wantSeq fuel ((msg.octets ++ tail).take n) s =
        onItems handler wantSeq (within n (msg :: msgs)) s := by
    intro msg msgs tail n fuel s hwell hfuel hmore
    rw [within]
    by_cases hwhole : msg.len.toNat ≤ n
    · obtain ⟨fuel', hfuel', heq⟩ := serve_whole handler wantSeq hwell tail hwhole hfuel s
      rw [if_pos hwhole, heq, onItems]
      rcases onItem handler wantSeq (.message msg) s with ⟨_ | result, s'⟩
      · exact hmore s' hfuel'
      · rfl
    rw [if_neg hwhole]
    by_cases hhdr : hdrLen ≤ n
    · rw [if_pos hhdr, serve_cut handler wantSeq hwell tail hhdr (not_le.mp hwhole) hfuel]
      rfl
    · rw [if_neg hhdr]
      exact serve_short handler wantSeq (by rw [List.length_take]; omega) s
  induction h generalizing n fuel s with
  | nil =>
    rw [List.take_nil]
    exact serve_short handler wantSeq (by decide) s
  | @last msg pad hwell hpad =>
    refine hfront hwell hfuel fun s _ => ?_
    have hlen := Message.length_octets hwell
    rw [List.drop_eq_nil_of_le (by rw [List.length_append, hlen]; exact hpad), List.take_nil]
    exact serve_short handler wantSeq (by decide) s
  | @cons msg msgs rest pad hwell hpad _ ih =>
    refine hfront hwell hfuel fun s hfuel' => ?_
    have hdrop : (msg.octets ++ (pad ++ rest)).drop (align msg.len.toNat) = rest := by
      rw [← List.append_assoc]
      exact List.drop_left' (by rw [List.length_append, Message.length_octets hwell, hpad])
    rw [hdrop] at hfuel' ⊢
    exact ih hfuel' s

/-- One datagram, of which what fits is read: the length that `recv` reports is that of what it hands
over, so no datagram is reported as too long. -/
theorem receive_datagram (bytes : Bytes) (more : List Received) (s : σ) :
    Socket.receive handler wantSeq (.datagram bytes :: more) s =
      match Socket.serve handler wantSeq (bytes.take bufLen).length (bytes.take bufLen) s with
      | (some result, s) => (some result, s)
      | (none, s) => Socket.receive handler wantSeq more s :=
  if_neg (lt_irrefl _)

/-- **However the messages are cut into datagrams.** -/
theorem receive_arrives {received : List Received} {items left : List Item}
    (h : Arrives received items left) (s : σ) :
    Socket.receive handler wantSeq received s = onItems handler wantSeq left s := by
  induction h generalizing s with
  | nil => rfl
  | failed errno _ _ => rfl
  | datagram hframed _ ih =>
    rw [receive_datagram, serve_framed handler wantSeq hframed le_rfl, onItems_append]
    rcases onItems handler wantSeq _ s with ⟨_ | result, s'⟩
    · exact ih s'
    · rfl

/-- **The handler is called on the replies that are left, in order, each once**, up to its first error;
then the request returns what ended the exchange. -/
theorem receive_eq {received : List Received} {items left : List Item}
    (h : Arrives received items left) (s : σ) :
    Socket.receive handler wantSeq received s =
      match feed handler (calls wantSeq left) s with
      | (.error e, s) => (some (.error e), s)
      | (.ok (), s) => ((ending wantSeq left).map Item.result, s) := by
  rw [receive_arrives handler wantSeq h, onItems_eq]

end Loop

/-! ## Success reported -/

theorem result_message (msg : Message) :
    (Item.message msg).result = .ok () ↔
      (msg.kind = nlmsgError → statusOf msg.payload = some 0) ∧ msg.kind ≠ nlmsgOverrun := by
  rw [Item.result]
  by_cases herror : msg.kind = nlmsgError
  · have hne : nlmsgError ≠ nlmsgOverrun := by decide
    rw [if_pos herror, herror]
    cases hstatus : statusOf msg.payload with
    | none => simp
    | some code => by_cases hcode : code = 0 <;> simp [hcode, hne]
  · rw [if_neg herror]
    by_cases hoverrun : msg.kind = nlmsgOverrun <;> simp [herror, hoverrun]

/-- **What ends an exchange passes for a success** when it is one, and when it is the end of a failed
dump. -/
theorem result_eq_ok_iff {item : Item} :
    item.result = .ok () ↔ item.Success ∨ item.FailedDump := by
  cases item with
  | message msg =>
    rw [result_message, Item.Success]
    by_cases hfailed : (Item.message msg).FailedDump
    · have hdone : msg.kind = nlmsgDone := hfailed.1
      simp [hfailed, hdone, nlmsgDone, nlmsgError, nlmsgOverrun]
    · simp [hfailed]
  | cut => simp [Item.result, Item.Success, Item.FailedDump]
  | failed errno => simp [Item.result, Item.Success, Item.FailedDump]

theorem Item.Success.not_failedDump {item : Item} (h : item.Success) : ¬item.FailedDump := by
  cases item with
  | message msg => exact h.2.1
  | cut => exact not_false
  | failed errno => exact not_false

/-! ## What fits the buffer -/

theorem within_framed {msgs : List Message} {bytes : Bytes} (h : Framed msgs bytes) {n : ℕ}
    (hfits : bytes.length ≤ n) : within n msgs = msgs.map Item.message := by
  induction h generalizing n with
  | nil => rfl
  | @last msg pad hwell hpad =>
    rw [List.length_append, Message.length_octets hwell] at hfits
    rw [within, if_pos (by omega)]
    rfl
  | @cons msg msgs rest pad hwell hpad _ ih =>
    simp only [List.length_append, Message.length_octets hwell] at hfits
    rw [within, if_pos (by omega), ih (by omega)]
    rfl

/-- **Datagrams that fit the buffer are left as they are.** -/
theorem left_eq_items {received : List Received} {items left : List Item}
    (h : Arrives received items left) (hfits : Fits received) : left = items := by
  induction h with
  | nil => rfl
  | failed errno _ ih =>
    rw [ih fun bytes hmem => hfits bytes (List.mem_cons_of_mem _ hmem)]
  | datagram hframed _ ih =>
    rw [within_framed hframed (hfits _ (List.mem_cons_self ..)),
      ih fun bytes hmem => hfits bytes (List.mem_cons_of_mem _ hmem)]

/-- What is left whole tells the exchange unless it ends a failed dump. -/
theorem told_self_iff {wantSeq : UInt32} {items : List Item} :
    Told wantSeq items items ↔ ∀ item ∈ ending wantSeq items, ¬item.FailedDump := by
  rw [Told]
  cases hending : ending wantSeq items with
  | none => simp
  | some item =>
    have hiff : ((item.Success ∨ item.FailedDump) ↔ item.Success) ↔ ¬item.FailedDump := by
      have hnot : item.Success → ¬item.FailedDump := Item.Success.not_failedDump
      tauto
    simpa using hiff

/-! ## A request -/

theorem request_sent {σ : Type} (handler : Message → σ → Except Error Unit × σ) {msg : Bytes}
    {wantSeq : UInt32} (hseq : Socket.wantSeqOf msg = some wantSeq) (received : List Received)
    (s : σ) :
    Socket.request handler (.ok ()) msg received s =
      Socket.receive handler wantSeq received s := by
  rw [Socket.request, hseq]

/-- **A request is answered truthfully**, whatever its handler does, exactly when what the buffer leaves
tells the exchange as it was; where the datagrams fit the buffer, exactly when what ends the exchange is
not a dump the kernel ended with a negative status. -/
theorem request_iff {msg : Bytes} {wantSeq : UInt32} (hseq : Socket.wantSeqOf msg = some wantSeq)
    {received : List Received} {items left : List Item} (h : Arrives received items left) :
    ((∀ (σ : Type) (handler : Message → σ → Except Error Unit × σ) (s : σ),
      Answered handler wantSeq items s (Socket.request handler (.ok ()) msg received s)) ↔
      Told wantSeq items left) ∧
    (Fits received →
      (Told wantSeq items left ↔ ∀ item ∈ ending wantSeq items, ¬item.FailedDump)) := by
  refine ⟨⟨fun hanswered => ?_, fun htold σ handler s => ?_⟩, fun hfits => ?_⟩
  · -- a handler that notes what it is called on
    have hnote : ∀ msgs seen : List Message,
        feed (fun msg (seen : List Message) => ((.ok () : Except Error Unit), seen ++ [msg])) msgs seen =
          (.ok (), seen ++ msgs) := by
      intro msgs
      induction msgs with
      | nil => intro seen; rw [List.append_nil]; rfl
      | cons msg msgs ih =>
        intro seen
        exact (ih (seen ++ [msg])).trans (by rw [List.append_assoc]; rfl)
    have hnoted := hanswered (List Message) (fun msg seen => (.ok (), seen ++ [msg])) []
    rw [request_sent _ hseq, receive_eq _ _ h, Answered, hnote, hnote] at hnoted
    obtain ⟨hcalls, hends⟩ := hnoted
    refine ⟨hcalls, ?_⟩
    cases hitem : ending wantSeq items with
    | none =>
      rw [hitem] at hends
      rw [Option.map_eq_none_iff.mp hends]
      exact .none
    | some item =>
      rw [hitem] at hends
      obtain ⟨answer, hanswer, hiff⟩ := hends
      obtain ⟨taken, htaken, rfl⟩ := Option.map_eq_some_iff.mp hanswer
      rw [htaken]
      exact .some (result_eq_ok_iff.symm.trans hiff)
  · obtain ⟨hcalls, hends⟩ := htold
    rw [request_sent _ hseq, receive_eq _ _ h, Answered, hcalls]
    rcases feed handler (calls wantSeq items) s with ⟨_ | _, s'⟩
    · rfl
    refine ⟨rfl, ?_⟩
    generalize ending wantSeq left = taken at hends ⊢
    generalize ending wantSeq items = item at hends ⊢
    cases hends with
    | none => rfl
    | some hiff => exact ⟨_, rfl, result_eq_ok_iff.trans hiff⟩
  · rw [left_eq_items h hfits, told_self_iff]

/-! ## Two dumps -/

/-- A request to dump, its sequence number 7. -/
def sampleDump : Bytes := (MsgBuilder.new 16 0x301 7).finish

/-- One part of a dump. -/
def samplePart (seq : UInt32) : Message := ⟨20, 16, nlmFMulti, seq, 0, [1, 0, 0, 0]⟩

/-- The end of a dump, with a status. -/
def sampleDone (status : Bytes) : Message := ⟨20, nlmsgDone, nlmFMulti, 7, 0, status⟩

/-- A dump of one part, with a message of another exchange behind it. -/
theorem answered_dump :
    Answered (fun msg (seen : List Message) => (.ok (), seen ++ [msg])) 7
      [.message (samplePart 7), .message (samplePart 3), .message (sampleDone [0, 0, 0, 0])] []
      (Socket.request (fun msg seen => (.ok (), seen ++ [msg])) (.ok ()) sampleDump
        [.datagram ((samplePart 7).octets ++ ([] ++ ((samplePart 3).octets ++ []))),
          .datagram ((sampleDone [0, 0, 0, 0]).octets ++ [])] []) := by
  have harrives : Arrives
      [.datagram ((samplePart 7).octets ++ ([] ++ ((samplePart 3).octets ++ []))),
        .datagram ((sampleDone [0, 0, 0, 0]).octets ++ [])]
      ([.message (samplePart 7), .message (samplePart 3)] ++
        ([.message (sampleDone [0, 0, 0, 0])] ++ []))
      (within bufLen [samplePart 7, samplePart 3] ++
        (within bufLen [sampleDone [0, 0, 0, 0]] ++ [])) := by
    have hparts : Framed [samplePart 7, samplePart 3]
        ((samplePart 7).octets ++ ([] ++ ((samplePart 3).octets ++ []))) :=
      .cons [] rfl rfl (.last [] rfl (by decide))
    have hdone : Framed [sampleDone [0, 0, 0, 0]] ((sampleDone [0, 0, 0, 0]).octets ++ []) :=
      .last [] rfl (by decide)
    exact .datagram hparts (.datagram hdone .nil)
  have hfits : Fits [.datagram ((samplePart 7).octets ++ ([] ++ ((samplePart 3).octets ++ []))),
      .datagram ((sampleDone [0, 0, 0, 0]).octets ++ [])] := by
    intro bytes hmem
    simp only [List.mem_cons, Received.datagram.injEq, List.not_mem_nil, or_false] at hmem
    rcases hmem with rfl | rfl <;> decide
  have hseq : Socket.wantSeqOf sampleDump = some 7 := by decide
  obtain ⟨hanswered, htold⟩ := request_iff hseq harrives
  refine hanswered.mpr ((htold hfits).mpr ?_) (List Message) _ []
  have hending : ending 7 ([.message (samplePart 7), .message (samplePart 3)] ++
      ([.message (sampleDone [0, 0, 0, 0])] ++ [])) = some (.message (sampleDone [0, 0, 0, 0])) := by
    decide
  rw [hending]
  rintro item ⟨⟩ ⟨-, status, hstatus, hneg⟩
  obtain rfl : (0 : Int32) = status := Option.some_inj.mp hstatus
  exact absurd hneg (by decide)

/-- A dump the kernel gave up on, its status -16: it arrives, its request returns success, and success
was not reported. -/
theorem busy_dump :
    Arrives [.datagram ((sampleDone [0xf0, 0xff, 0xff, 0xff]).octets ++ [])]
        [.message (sampleDone [0xf0, 0xff, 0xff, 0xff])]
        [.message (sampleDone [0xf0, 0xff, 0xff, 0xff])] ∧
      Socket.request (fun _ (s : Unit) => (.ok (), s)) (.ok ()) sampleDump
        [.datagram ((sampleDone [0xf0, 0xff, 0xff, 0xff]).octets ++ [])] () = (some (.ok ()), ()) ∧
      statusOf (sampleDone [0xf0, 0xff, 0xff, 0xff]).payload = some (-16) ∧
      ¬(Item.message (sampleDone [0xf0, 0xff, 0xff, 0xff])).Success := by
  refine ⟨?_, by decide +kernel, by decide, ?_⟩
  · exact @Arrives.datagram _ [sampleDone [0xf0, 0xff, 0xff, 0xff]] _ _ _
      (.last [] rfl (by decide)) .nil
  · rintro ⟨-, hstatus, -⟩
    exact hstatus ⟨rfl, -16, by decide, by decide⟩

/-- A part of a dump that leaves four octets of the buffer. -/
def sampleLong : Message := ⟨65532, 16, nlmFMulti, 7, 0, .replicate 65516 0⟩

/-- A dump whose first datagram is longer than the buffer: the part of it that is cut off is lost, and
the request returns success. -/
theorem cut_dump :
    Arrives [.datagram (sampleLong.octets ++ ([] ++ ((samplePart 7).octets ++ []))),
          .datagram ((sampleDone [0, 0, 0, 0]).octets ++ [])]
        [.message sampleLong, .message (samplePart 7), .message (sampleDone [0, 0, 0, 0])]
        [.message sampleLong, .message (sampleDone [0, 0, 0, 0])] ∧
      Socket.request (fun msg (seen : List Message) => (.ok (), seen ++ [msg])) (.ok ()) sampleDump
        [.datagram (sampleLong.octets ++ ([] ++ ((samplePart 7).octets ++ []))),
          .datagram ((sampleDone [0, 0, 0, 0]).octets ++ [])] [] = (some (.ok ()), [sampleLong]) ∧
      calls 7 [.message sampleLong, .message (samplePart 7), .message (sampleDone [0, 0, 0, 0])] =
        [sampleLong, samplePart 7] := by
  have hwell : sampleLong.WellFormed := by
    have hpayload : sampleLong.payload.length = 65516 := List.length_replicate
    have hlen : sampleLong.len.toNat = 65532 := rfl
    rw [Message.WellFormed, hpayload, hlen]
  have hparts : Framed [sampleLong, samplePart 7]
      (sampleLong.octets ++ ([] ++ ((samplePart 7).octets ++ []))) :=
    .cons [] hwell rfl (.last [] rfl (by decide))
  have hdone : Framed [sampleDone [0, 0, 0, 0]] ((sampleDone [0, 0, 0, 0]).octets ++ []) :=
    .last [] rfl (by decide)
  have harrives := Arrives.datagram hparts (Arrives.datagram hdone .nil)
  have hseq : Socket.wantSeqOf sampleDump = some 7 := by decide
  refine ⟨harrives, ?_, rfl⟩
  rw [request_sent _ hseq, receive_eq _ _ harrives]
  rfl

end Netlink

end Caw
