import Caw.Dhcp.Message

/-!
# Router advertisements

The ICMPv6 message a router announces its prefixes and name servers with.

* `PrefixInfo`, `RouterAdvert`, `RouterAdvert.decode`: the message, and the walk over its options, in
  which a read past the end would panic;
* `NdOption`: an option of whole units of eight octets;
* `Said`, `Announces`: what options say, one by one and in order;
* `add_said`, `add_cases`: what is made of one option;
* `Advertises`: a header and options that fill the rest of the message;
* **`decode_iff`**: decoding never reads past the end, and accepts just the messages that advertise.
-/

set_option autoImplicit false

namespace Caw

open Dhcp (Error)

/-- An IPv6 address, as its sixteen octets. -/
abbrev Ipv6Addr : Type := Octets 16

/-- ICMPv6 type 134. -/
def routerAdvertisement : UInt8 := 134

/-- Type, code, checksum, hop limit, flags and three lifetimes. -/
abbrev raHdrLen : ℕ := 16

/-- Option: a prefix. -/
def optPrefixInfo : UInt8 := 3

/-- Option: name servers. -/
def optRdnss : UInt8 := 25

/-- Addresses are to be had by DHCPv6. -/
def flagManaged : UInt8 := 0x80
/-- Other information is to be had by DHCPv6. -/
def flagOther : UInt8 := 0x40
/-- The addresses of the prefix are on the link. -/
def prefixOnLink : UInt8 := 0x80
/-- An address may be made from the prefix. -/
def prefixAutonomous : UInt8 := 0x40

/-- One prefix information option. -/
structure PrefixInfo where
  address : Ipv6Addr
  prefixLen : UInt8
  onLink : Bool
  /-- The prefix may be used to form an address. -/
  autonomous : Bool
  validLifetime : ℕ
  preferredLifetime : ℕ
deriving DecidableEq

/-- A parsed advertisement. -/
structure RouterAdvert where
  hopLimit : UInt8
  /-- Take the address from DHCPv6. -/
  managed : Bool
  /-- Take the rest of the configuration from DHCPv6. -/
  otherConfig : Bool
  routerLifetime : ℕ
  reachableTime : ℕ
  retransTimer : ℕ
  prefixes : List PrefixInfo
  dns : List Ipv6Addr
deriving DecidableEq

/-! ## Reading -/

/-- The octets at these indices; an index past the end panics. -/
def octetsAt (b : Bytes) (indices : List ℕ) : Option Bytes := indices.mapM fun i => b[i]?

/-- The octets of a range that does not reach past the end. -/
def getRange (b : Bytes) (i j : ℕ) : Option Bytes :=
  if j ≤ b.length then some ((b.take j).drop i) else none

/-- The whole addresses of a run of octets. -/
def asChunks (b : Bytes) : List Ipv6Addr :=
  (List.range (b.length / 16)).map fun k => Bytes.slice (16 * k) 16 b

/-- What a prefix option says; nothing if a read panics. -/
def prefixInfo (opt : Bytes) : Option (Except Error PrefixInfo) :=
  if opt.length ≠ 32 then some (.error .malformed)
  else do
    let prefixLen ← opt[2]?
    if 128 < prefixLen then some (.error .malformed)
    else do
      let address ← getRange opt 16 32
      let flags ← opt[3]?
      let valid ← octetsAt opt [4, 5, 6, 7]
      let preferred ← octetsAt opt [8, 9, 10, 11]
      some (.ok
        { address := Bytes.slice 0 16 address, prefixLen
          onLink := flags &&& prefixOnLink ≠ 0, autonomous := flags &&& prefixAutonomous ≠ 0
          validLifetime := Bytes.ofBE valid, preferredLifetime := Bytes.ofBE preferred })

/-- Type, length, two reserved octets and a lifetime, then whole addresses. -/
def rdnss (opt : Bytes) : Except Error (List Ipv6Addr) :=
  if opt.length < 8 then .error .malformed
  else
    let addrs := opt.drop 8
    if addrs.isEmpty || addrs.length % 16 ≠ 0 then .error .malformed else .ok (asChunks addrs)

namespace RouterAdvert

/-- One option more. The rest of them carry nothing that is acted on. -/
def add (advert : RouterAdvert) (kind : UInt8) (opt : Bytes) : Option (Except Error RouterAdvert) :=
  if kind = optPrefixInfo then
    (prefixInfo opt).map (Except.map fun info =>
      { advert with prefixes := advert.prefixes ++ [info] })
  else if kind = optRdnss then
    some ((rdnss opt).map fun addrs => { advert with dns := advert.dns ++ addrs })
  else some (.ok advert)

/-- The options from an index on. A length of zero would not get any further. -/
def options (buf : Bytes) (i : ℕ) (advert : RouterAdvert) : Option (Except Error RouterAdvert) :=
  if _hi : i < buf.length then
    match getRange buf i (i + 2) with
    | none => some (.error .malformed)
    | some header =>
      header[1]?.bind fun units =>
        let len := units.toNat * 8
        if _hlen : len = 0 then some (.error .malformed)
        else
          match getRange buf i (i + len) with
          | none => some (.error .malformed)
          | some opt =>
            header[0]?.bind fun kind =>
              (advert.add kind opt).bind fun
                | .error e => some (.error e)
                | .ok advert => options buf (i + len) advert
  else some (.ok advert)
termination_by buf.length - i

/-- Decode a message from its type on; nothing if a read panics. -/
def decode (buf : Bytes) : Option (Except Error RouterAdvert) :=
  if buf.length < raHdrLen then some (.error .malformed)
  else do
    let kind ← buf[0]?
    let code ← buf[1]?
    if kind ≠ routerAdvertisement || code ≠ 0 then some (.error .malformed)
    else do
      let hopLimit ← buf[4]?
      let flags ← buf[5]?
      let routerLifetime ← octetsAt buf [6, 7]
      let reachableTime ← octetsAt buf [8, 9, 10, 11]
      let retransTimer ← octetsAt buf [12, 13, 14, 15]
      options buf raHdrLen
        { hopLimit, managed := flags &&& flagManaged ≠ 0, otherConfig := flags &&& flagOther ≠ 0
          routerLifetime := Bytes.ofBE routerLifetime, reachableTime := Bytes.ofBE reachableTime
          retransTimer := Bytes.ofBE retransTimer, prefixes := [], dns := [] }

end RouterAdvert

/-! ## What a message says -/

/-- An option: a type, a length in units of eight octets and what fills them. -/
structure NdOption where
  kind : UInt8
  units : UInt8
  body : Bytes
  units_ne : units ≠ 0
  size : body.length + 2 = units.toNat * 8

/-- The octets of an option. -/
def NdOption.wire (o : NdOption) : Bytes := o.kind :: o.units :: o.body

/-- The big-endian number in the `n` octets at an offset. -/
def numberAt (off n : ℕ) (b : Bytes) : ℕ := Bytes.ofBE (Bytes.slice off n b).toList

/-- The prefix in an option of 32 octets. -/
def PrefixInfo.ofBytes (opt : Bytes) : PrefixInfo where
  address := Bytes.slice 16 16 opt
  prefixLen := opt.getD 2 0
  onLink := opt.getD 3 0 &&& prefixOnLink ≠ 0
  autonomous := opt.getD 3 0 &&& prefixAutonomous ≠ 0
  validLifetime := numberAt 4 4 opt
  preferredLifetime := numberAt 8 4 opt

/-- What one option says: a prefix, name servers, or nothing of interest. -/
inductive Said (o : NdOption) : List PrefixInfo → List Ipv6Addr → Prop
  | info : o.kind = optPrefixInfo → o.wire.length = 32 → o.wire.getD 2 0 ≤ 128 →
      Said o [PrefixInfo.ofBytes o.wire] []
  | servers (addrs : List Ipv6Addr) : o.kind = optRdnss → addrs ≠ [] →
      o.wire.drop 8 = addrs.flatMap List.Vector.toList → Said o [] addrs
  | other : o.kind ≠ optPrefixInfo → o.kind ≠ optRdnss → Said o [] []

/-- What options say, in order. -/
inductive Announces : List NdOption → List PrefixInfo → List Ipv6Addr → Prop
  | nil : Announces [] [] []
  | cons {o : NdOption} {os : List NdOption} {infos infos' : List PrefixInfo}
      {addrs addrs' : List Ipv6Addr} : Said o infos addrs → Announces os infos' addrs' →
      Announces (o :: os) (infos ++ infos') (addrs ++ addrs')

/-- The message is an advertisement: a header, and options that fill the rest of it. -/
def Advertises (buf : Bytes) (advert : RouterAdvert) : Prop :=
  raHdrLen ≤ buf.length ∧ buf.getD 0 0 = routerAdvertisement ∧ buf.getD 1 0 = 0 ∧
    ∃ os infos addrs, buf.drop raHdrLen = os.flatMap NdOption.wire ∧ Announces os infos addrs ∧
      advert =
        { hopLimit := buf.getD 4 0, managed := buf.getD 5 0 &&& flagManaged ≠ 0
          otherConfig := buf.getD 5 0 &&& flagOther ≠ 0, routerLifetime := numberAt 6 2 buf
          reachableTime := numberAt 8 4 buf, retransTimer := numberAt 12 4 buf, prefixes := infos
          dns := addrs }

/-! ## One option -/

theorem getElem?_of_lt {b : Bytes} {i : ℕ} (h : i < b.length) : b[i]? = some (b.getD i 0) := by
  rw [List.getD_eq_getElem?_getD, List.getElem?_eq_getElem h, Option.getD_some]

theorem octetsAt_range' {b : Bytes} {off n : ℕ} (h : off + n ≤ b.length) :
    octetsAt b (List.range' off n) = some (Bytes.slice off n b).toList := by
  rw [Bytes.slice_toList off n b h, octetsAt]
  induction n generalizing off with
  | zero => simp
  | succ n ih =>
    have hlt : off < b.length := by omega
    rw [List.range'_succ, List.mapM_cons, ih (by omega), List.getElem?_eq_getElem hlt]
    rw [List.drop_eq_getElem_cons hlt, List.take_succ_cons]
    rfl

theorem getRange_of_le {b : Bytes} {i j : ℕ} (h : j ≤ b.length) :
    getRange b i j = some ((b.take j).drop i) := if_pos h

theorem prefixInfo_eq {opt : Bytes} (h : opt.length = 32) : prefixInfo opt =
    some (if 128 < opt.getD 2 0 then .error .malformed else .ok (.ofBytes opt)) := by
  have haddress : Bytes.slice 0 16 ((opt.take 32).drop 16) = Bytes.slice 16 16 opt := by
    apply List.Vector.toList_injective
    rw [Bytes.slice_toList _ _ _ (by simp [h]), Bytes.slice_toList _ _ _ (by omega), List.drop_zero,
      ← h, List.take_length]
  have hvalid : octetsAt opt [4, 5, 6, 7] = some (Bytes.slice 4 4 opt).toList :=
    @octetsAt_range' opt 4 4 (by omega)
  have hpreferred : octetsAt opt [8, 9, 10, 11] = some (Bytes.slice 8 4 opt).toList :=
    @octetsAt_range' opt 8 4 (by omega)
  rw [prefixInfo, if_neg (not_not.mpr h), getElem?_of_lt (show 2 < opt.length by omega),
    getElem?_of_lt (show 3 < opt.length by omega), getRange_of_le (by omega), hvalid, hpreferred]
  simp only [Option.bind_eq_bind, Option.bind_some, haddress]
  split_ifs <;> rfl

theorem asChunks_cons (a : Ipv6Addr) (rest : Bytes) :
    asChunks (a.toList ++ rest) = a :: asChunks rest := by
  have hlen : (a.toList ++ rest).length / 16 = rest.length / 16 + 1 := by
    rw [List.length_append, a.toList_length]
    omega
  have hslice : ∀ k, Bytes.slice (16 * (k + 1)) 16 (a.toList ++ rest) =
      Bytes.slice (16 * k) 16 rest := by
    intro k
    rw [Bytes.slice_append_right (by rw [a.toList_length]; omega), a.toList_length]
    rfl
  rw [asChunks, hlen, List.range_succ_eq_map, List.map_cons, List.map_map]
  exact congrArg₂ List.cons (Bytes.slice_zero_append a rest)
    (congrArg (fun f => List.map f _) (funext hslice))

theorem asChunks_flatMap (addrs : List Ipv6Addr) :
    asChunks (addrs.flatMap List.Vector.toList) = addrs := by
  induction addrs with
  | nil => rfl
  | cons a addrs ih => rw [List.flatMap_cons, asChunks_cons, ih]

theorem exists_addrs {b : Bytes} (h : b.length % 16 = 0) :
    ∃ addrs : List Ipv6Addr, b = addrs.flatMap List.Vector.toList := by
  induction hn : b.length using Nat.strongRecOn generalizing b with
  | ind n ih =>
    by_cases hnil : b = []
    · exact ⟨[], hnil⟩
    · have hpos := List.length_pos_iff.mpr hnil
      have hdrop : (b.drop 16).length = b.length - 16 := List.length_drop
      obtain ⟨addrs, hrest⟩ := ih _ (by omega) (b := b.drop 16) (by omega) rfl
      refine ⟨Bytes.slice 0 16 b :: addrs, ?_⟩
      rw [List.flatMap_cons, Bytes.slice_toList 0 16 b (by omega), List.drop_zero, ← hrest,
        List.take_append_drop]

theorem length_flatMap_addrs (addrs : List Ipv6Addr) :
    (addrs.flatMap List.Vector.toList).length = 16 * addrs.length := by
  induction addrs with
  | nil => rfl
  | cons a addrs ih =>
    rw [List.flatMap_cons, List.length_append, ih, a.toList_length, List.length_cons]
    omega

theorem NdOption.length_wire (o : NdOption) : o.wire.length = o.units.toNat * 8 := by
  rw [wire, List.length_cons, List.length_cons, ← o.size]

theorem NdOption.length_ge (o : NdOption) : 8 ≤ o.wire.length := by
  have hpos : o.units.toNat ≠ 0 := fun h => o.units_ne (UInt8.toNat_inj.mp h)
  rw [o.length_wire]
  omega

section Options

variable {o : NdOption} {infos : List PrefixInfo} {addrs : List Ipv6Addr}

theorem Said.rdnss_eq (hne : addrs ≠ []) (haddrs : o.wire.drop 8 = addrs.flatMap List.Vector.toList) :
    rdnss o.wire = .ok addrs := by
  have hlen := length_flatMap_addrs addrs
  have hpos := List.length_pos_iff.mpr hne
  have hfull : (addrs.flatMap List.Vector.toList).isEmpty = false := by
    rw [List.isEmpty_eq_false_iff, ← List.length_pos_iff, hlen]
    omega
  rw [rdnss, if_neg (not_lt.mpr o.length_ge), haddrs]
  simp only [hfull, hlen, asChunks_flatMap]
  simp

namespace RouterAdvert

/-- What an option says is added to the rest. -/
def plus (advert : RouterAdvert) (infos : List PrefixInfo) (addrs : List Ipv6Addr) : RouterAdvert :=
  { advert with prefixes := advert.prefixes ++ infos, dns := advert.dns ++ addrs }

theorem add_said (h : Said o infos addrs) (advert : RouterAdvert) :
    advert.add o.kind o.wire = some (.ok (advert.plus infos addrs)) := by
  rw [add]
  cases h with
  | info hkind hlen hmax =>
    rw [if_pos hkind, prefixInfo_eq hlen, if_neg (UInt8.not_lt.mpr hmax)]
    simp [plus, Except.map]
  | servers _ hkind hne haddrs =>
    rw [if_neg (by rw [hkind]; decide), if_pos hkind, Said.rdnss_eq hne haddrs]
    simp [plus, Except.map]
  | other hinfo hrdnss =>
    rw [if_neg hinfo, if_neg hrdnss]
    simp [plus]

theorem add_cases (o : NdOption) (advert : RouterAdvert) :
    advert.add o.kind o.wire = some (.error .malformed) ∨ ∃ infos addrs, Said o infos addrs := by
  rw [add]
  by_cases hinfo : o.kind = optPrefixInfo
  · rw [if_pos hinfo]
    by_cases hlen : o.wire.length = 32
    · by_cases hmax : 128 < o.wire.getD 2 0
      · rw [prefixInfo_eq hlen, if_pos hmax]
        exact .inl rfl
      · exact .inr ⟨_, _, .info hinfo hlen (UInt8.not_lt.mp hmax)⟩
    · rw [prefixInfo, if_pos hlen]
      exact .inl rfl
  rw [if_neg hinfo]
  by_cases hrdnss : o.kind = optRdnss
  · rw [if_pos hrdnss, rdnss, if_neg (not_lt.mpr o.length_ge)]
    simp only
    by_cases hbad : ((o.wire.drop 8).isEmpty || (o.wire.drop 8).length % 16 ≠ 0) = true
    · rw [if_pos hbad]
      exact .inl rfl
    · rw [Bool.or_eq_true, not_or, decide_eq_true_eq, not_not] at hbad
      obtain ⟨addrs, haddrs⟩ := exists_addrs hbad.2
      refine .inr ⟨[], addrs, .servers addrs hrdnss ?_ haddrs⟩
      rintro rfl
      exact hbad.1 (by rw [haddrs]; rfl)
  · exact .inr ⟨_, _, .other hinfo hrdnss⟩

/-! ## The options -/

variable {buf : Bytes} {i : ℕ}

theorem options_cases (hi : i < buf.length) (advert : RouterAdvert) :
    options buf i advert = some (.error .malformed) ∨
      ∃ (o : NdOption) (rest : Bytes), buf.drop i = o.wire ++ rest := by
  rw [options, dif_pos hi]
  by_cases hheader : i + 2 ≤ buf.length
  · rw [getRange_of_le hheader]
    obtain ⟨kind, units, rest, hrest⟩ : ∃ kind units rest, buf.drop i = kind :: units :: rest := by
      rcases hdrop : buf.drop i with _ | ⟨kind, _ | ⟨units, rest⟩⟩
      · have hlen := congrArg List.length hdrop
        simp only [List.length_drop, List.length_nil] at hlen
        omega
      · have hlen := congrArg List.length hdrop
        simp only [List.length_drop, List.length_cons, List.length_nil] at hlen
        omega
      · exact ⟨kind, units, rest, rfl⟩
    have htwo : (buf.take (i + 2)).drop i = [kind, units] := by
      rw [List.drop_take, hrest, Nat.add_sub_cancel_left]
      rfl
    simp only [htwo, List.getElem?_cons_succ, List.getElem?_cons_zero, Option.bind_some]
    by_cases hzero : units.toNat * 8 = 0
    · exact .inl (dif_pos hzero)
    rw [dif_neg hzero]
    by_cases hfits : i + units.toNat * 8 ≤ buf.length
    · have hlen : (kind :: units :: rest).length = buf.length - i := by
        rw [← hrest, List.length_drop]
      have hunits : units ≠ 0 := fun h => hzero (by rw [h]; rfl)
      have hsize : (rest.take (units.toNat * 8 - 2)).length + 2 = units.toNat * 8 := by
        simp only [List.length_cons] at hlen
        rw [List.length_take]
        omega
      refine .inr ⟨⟨kind, units, rest.take (units.toNat * 8 - 2), hunits, hsize⟩,
        rest.drop (units.toNat * 8 - 2), ?_⟩
      rw [hrest, NdOption.wire, List.cons_append, List.cons_append, List.take_append_drop]
    · exact .inl (by rw [getRange, if_neg hfits])
  · exact .inl (by rw [getRange, if_neg hheader])

theorem options_cons {o : NdOption} {rest : Bytes} (h : buf.drop i = o.wire ++ rest)
    (advert : RouterAdvert) : options buf i advert = (advert.add o.kind o.wire).bind fun
      | .error e => some (.error e)
      | .ok advert => options buf (i + o.wire.length) advert := by
  have hge := o.length_ge
  have hlen : buf.length - i = o.wire.length + rest.length := by
    rw [← List.length_drop, h, List.length_append]
  have htwo : (buf.take (i + 2)).drop i = [o.kind, o.units] := by
    rw [List.drop_take, h, Nat.add_sub_cancel_left]
    rfl
  have hopt : (buf.take (i + o.wire.length)).drop i = o.wire := by
    rw [List.drop_take, h, Nat.add_sub_cancel_left, List.take_left' rfl]
  have hpos : o.units.toNat * 8 ≠ 0 := by
    rw [← o.length_wire]
    omega
  rw [options, dif_pos (by omega), getRange_of_le (by omega)]
  simp only [htwo, List.getElem?_cons_succ, List.getElem?_cons_zero, Option.bind_some]
  rw [dif_neg hpos, ← o.length_wire, getRange_of_le (by omega)]
  simp only [hopt]

theorem drop_wire {o : NdOption} {rest : Bytes} (h : buf.drop i = o.wire ++ rest) :
    buf.drop (i + o.wire.length) = rest := by
  rw [← List.drop_drop, h, List.drop_left' rfl]

theorem options_end (h : buf.length ≤ i) (advert : RouterAdvert) :
    options buf i advert = some (.ok advert) := by
  rw [options, dif_neg (by omega)]

/-- **Options that say something** are read to the end. -/
theorem options_reads {os : List NdOption} {infos : List PrefixInfo} {addrs : List Ipv6Addr}
    (h : Announces os infos addrs) (hbuf : buf.drop i = os.flatMap NdOption.wire)
    (advert : RouterAdvert) : options buf i advert = some (.ok (advert.plus infos addrs)) := by
  induction h generalizing i advert with
  | nil =>
    rw [options_end (List.drop_eq_nil_iff.mp hbuf)]
    simp [plus]
  | cons hsaid _ ih =>
    rw [List.flatMap_cons] at hbuf
    rw [options_cons hbuf, add_said hsaid]
    refine (ih (drop_wire hbuf) _).trans ?_
    simp [plus]

/-- **The walk ends without a read past the end**, and where it succeeds the options say what it
returns. -/
theorem options_spec (buf : Bytes) (i : ℕ) (advert : RouterAdvert) :
    options buf i advert = some (.error .malformed) ∨ ∃ os infos addrs,
      buf.drop i = os.flatMap NdOption.wire ∧ Announces os infos addrs ∧
        options buf i advert = some (.ok (advert.plus infos addrs)) := by
  induction hn : buf.length - i using Nat.strongRecOn generalizing i advert with
  | ind n ih =>
    by_cases hi : i < buf.length
    · rcases options_cases hi advert with herror | ⟨o, rest, hrest⟩
      · exact .inl herror
      · rw [options_cons hrest]
        rcases add_cases o advert with herror | ⟨infos, addrs, hsaid⟩
        · rw [herror]
          exact .inl rfl
        · have hge := o.length_ge
          rw [add_said hsaid]
          rcases ih _ (by omega) (i + o.wire.length) (advert.plus infos addrs) rfl with
            herror | ⟨os, infos', addrs', hos, hannounces, hok⟩
          · exact .inl herror
          · refine .inr ⟨o :: os, _, _, ?_, .cons hsaid hannounces, hok.trans (by simp [plus])⟩
            rw [List.flatMap_cons, ← hos, drop_wire hrest, hrest]
    · refine .inr ⟨[], [], [], ?_, .nil, ?_⟩
      · exact List.drop_of_length_le (not_lt.mp hi)
      · rw [options_end (not_lt.mp hi)]
        simp [plus]

end RouterAdvert

end Options

namespace RouterAdvert

theorem decode_eq {buf : Bytes} (hlen : raHdrLen ≤ buf.length) : decode buf =
    if buf.getD 0 0 ≠ routerAdvertisement || buf.getD 1 0 ≠ 0 then some (.error .malformed)
    else options buf raHdrLen
      { hopLimit := buf.getD 4 0, managed := buf.getD 5 0 &&& flagManaged ≠ 0
        otherConfig := buf.getD 5 0 &&& flagOther ≠ 0, routerLifetime := numberAt 6 2 buf
        reachableTime := numberAt 8 4 buf, retransTimer := numberAt 12 4 buf, prefixes := []
        dns := [] } := by
  have hhdr : raHdrLen = 16 := rfl
  have hrouter : octetsAt buf [6, 7] = some (Bytes.slice 6 2 buf).toList :=
    @octetsAt_range' buf 6 2 (by omega)
  have hreachable : octetsAt buf [8, 9, 10, 11] = some (Bytes.slice 8 4 buf).toList :=
    @octetsAt_range' buf 8 4 (by omega)
  have hretrans : octetsAt buf [12, 13, 14, 15] = some (Bytes.slice 12 4 buf).toList :=
    @octetsAt_range' buf 12 4 (by omega)
  rw [decode, if_neg (not_lt.mpr hlen), getElem?_of_lt (show 0 < buf.length by omega),
    getElem?_of_lt (show 1 < buf.length by omega), getElem?_of_lt (show 4 < buf.length by omega),
    getElem?_of_lt (show 5 < buf.length by omega), hrouter, hreachable, hretrans]
  rfl

/-- **What is decoded.** No read goes past the end; and a message is accepted just if it is a header of
its type and options that fill the rest, every prefix option of 32 octets with a prefix that is not too
long, every server option with one address or more and nothing else. What is returned is what the
options say, in order. -/
theorem decode_iff (buf : Bytes) :
    decode buf ≠ none ∧ ∀ advert, decode buf = some (.ok advert) ↔ Advertises buf advert := by
  by_cases hlen : raHdrLen ≤ buf.length
  · rw [decode_eq hlen]
    by_cases hhead : (buf.getD 0 0 ≠ routerAdvertisement || buf.getD 1 0 ≠ 0) = true
    · rw [if_pos hhead]
      refine ⟨nofun, fun advert => iff_of_false nofun ?_⟩
      rintro ⟨-, hkind, hcode, -⟩
      rw [hkind, hcode] at hhead
      simp at hhead
    · rw [if_neg hhead]
      simp only [Bool.or_eq_true, decide_eq_true_eq, not_or, not_not] at hhead
      refine ⟨fun hnone => ?_, fun advert => ⟨fun hok => ?_, ?_⟩⟩
      · rcases options_spec buf raHdrLen _ with herror | ⟨os, infos, addrs, -, -, hspec⟩
        · cases hnone.symm.trans herror
        · cases hnone.symm.trans hspec
      · rcases options_spec buf raHdrLen _ with herror | ⟨os, infos, addrs, hos, hannounces, hspec⟩
        · cases hok.symm.trans herror
        · cases hok.symm.trans hspec
          exact ⟨hlen, hhead.1, hhead.2, os, infos, addrs, hos, hannounces, rfl⟩
      · rintro ⟨-, -, -, os, infos, addrs, hos, hannounces, rfl⟩
        exact options_reads hannounces hos _
  · have hdecode : decode buf = some (.error .malformed) := if_pos (not_le.mp hlen)
    rw [hdecode]
    exact ⟨nofun, fun advert => iff_of_false nofun fun h => hlen h.1⟩

/-- An option with one address, and half of another one behind it. -/
def halfServer : NdOption := ⟨optRdnss, 4, List.replicate 30 0, by decide, by decide⟩

/-- A header of nothing but its type, and that option. -/
def halfAdvert : Bytes := routerAdvertisement :: List.replicate 15 0 ++ halfServer.wire

/-- **Half an address** behind a whole one is not accepted. -/
theorem half_refused : ¬ ∀ (buf : Bytes) (os : List NdOption), raHdrLen ≤ buf.length →
    buf.getD 0 0 = routerAdvertisement → buf.getD 1 0 = 0 →
    buf.drop raHdrLen = os.flatMap NdOption.wire →
    (∀ o ∈ os, o.kind = optPrefixInfo → o.wire.length = 32 ∧ o.wire.getD 2 0 ≤ 128) →
    (∀ o ∈ os, o.kind = optRdnss → 16 ≤ (o.wire.drop 8).length) →
    ∃ advert, decode buf = some (.ok advert) := by
  intro h
  have hone : ∀ o ∈ [halfServer], o = halfServer := fun o ho => List.mem_singleton.mp ho
  obtain ⟨advert, hok⟩ := h halfAdvert [halfServer] (by decide) (by decide) (by decide) (by decide)
    (fun o ho hkind => by rw [hone o ho] at hkind; cases hkind)
    (fun o ho _ => by rw [hone o ho]; decide)
  have hdrop : halfAdvert.drop raHdrLen = halfServer.wire ++ [] := by decide
  have hadd : ∀ advert : RouterAdvert, advert.add halfServer.kind halfServer.wire =
      some (.error .malformed) := fun _ => rfl
  rw [decode_eq (by decide), if_neg (by decide), options_cons hdrop, hadd] at hok
  cases hok

end RouterAdvert

end Caw
