import Caw.Dhcp.Message
import Caw.Lib.Utf8

/-!
# DHCP messages read back

The decoder is shown to invert the encoder: option by option, then the area, then the fixed part.

* `DhcpOption.Reads`: what an option is read back as, its value cut off at 255 octets;
* **`decodeFrom_encodeAll`**: an option area is read back option by option;
* `Message.addresses`: the fixed part, up to the text fields;
* **`Message.decode_encode_of`**: a message is read back field by field;
* `Message.WellFormed`, **`Message.round_trips`**: a well-formed message is read back unchanged, from at
  least 300 octets, and so is whatever was once decoded.
-/

set_option autoImplicit false

namespace Caw

namespace Dhcp

/-! ## Options -/

namespace DhcpOption

/-- The codes that have a variant of their own. -/
def knownCodes : List UInt8 :=
  [optSubnetMask, optRouter, optDns, optHostname, optRequestedIp, optLeaseTime, optMessageType,
    optServerId, optParamRequest, optT1, optT2, optClientId]

/-- The codes that carry no option. -/
def framingCodes : List UInt8 := [optPad, optOverload, optEnd]

/-- What the encoder asks of an option besides its length: lists that are not empty, and no number
that stands for something else. -/
def Proper : DhcpOption → Prop
  | router list | dns list => list ≠ [] ∧ list.length ≤ 63
  | messageType (.other code) => code ∉ [1, 2, 3, 4, 5, 6, 7, 8]
  | other code _ => code ∉ knownCodes ∧ code ∉ framingCodes
  | _ => True

/-- An option as the encoder is meant to be given it. -/
structure WellFormed (o : DhcpOption) : Prop where
  fits : o.data.length ≤ 255
  proper : o.Proper

/-- What an option is read back as; the encoder cuts its value off at 255 octets. -/
def Reads (o o' : DhcpOption) : Prop :=
  o.code ∉ framingCodes ∧ DhcpOption.decode o.code (o.data.take 255) = .ok o'

end DhcpOption

open DhcpOption (knownCodes framingCodes Reads)

theorem ipv4_toList (a : Ipv4Addr) : ipv4 a.toList = .ok a := by
  rw [ipv4, dif_pos a.toList_length]
  rfl

theorem chunks4_append (a : Ipv4Addr) (rest : Bytes) :
    chunks4 (a.toList ++ rest) = a :: chunks4 rest := by
  obtain ⟨l, hl⟩ := a
  match l, hl with
  | [w, x, y, z], _ => rfl

theorem chunks4_flatMap (l : List Ipv4Addr) : chunks4 (l.flatMap fun a => a.toList) = l := by
  induction l with
  | nil => rfl
  | cons a l ih => rw [List.flatMap_cons, chunks4_append, ih]

theorem length_flatMap (l : List Ipv4Addr) :
    (l.flatMap fun a => a.toList).length = 4 * l.length := by
  induction l with
  | nil => rfl
  | cons a l ih =>
    rw [List.flatMap_cons, List.length_append, ih, List.Vector.toList_length, List.length_cons]
    omega

theorem ipv4List_flatMap {l : List Ipv4Addr} (h : l ≠ []) :
    ipv4List (l.flatMap fun a => a.toList) = .ok l := by
  have hlen := length_flatMap l
  have hpos : 0 < l.length := List.length_pos_of_ne_nil h
  have hempty : (l.flatMap fun a => a.toList).isEmpty = false := by
    rw [List.isEmpty_eq_false_iff, ← List.length_pos_iff]
    omega
  rw [ipv4List, hempty, hlen, if_neg (by simp), chunks4_flatMap]

theorem beU32_toBE (v : UInt32) : beU32 (Bytes.toBE 4 v.toNat) = .ok v := by
  have hv : v.toNat < 256 ^ 4 := v.toNat_lt
  rw [beU32, if_pos (Bytes.length_toBE 4 _), be32, Bytes.ofBE_toBE, Nat.mod_eq_of_lt hv,
    UInt32.ofNat_toNat]

theorem fromCode_code {type : MessageType} (h : (DhcpOption.messageType type).Proper) :
    MessageType.fromCode type.code = type := by
  cases type with
  | other c =>
    have hc : c ∉ [1, 2, 3, 4, 5, 6, 7, 8] := h
    simp only [List.mem_cons, List.not_mem_nil, or_false, not_or] at hc
    obtain ⟨h1, h2, h3, h4, h5, h6, h7, h8⟩ := hc
    simp only [MessageType.code, MessageType.fromCode, h1, h2, h3, h4, h5, h6, h7, h8, if_false]
  | _ => rfl

theorem DhcpOption.WellFormed.framing {o : DhcpOption} (h : o.WellFormed) :
    o.code ∉ framingCodes := by
  have hknown : ∀ c ∈ knownCodes, c ∉ framingCodes := by decide +kernel
  cases o with
  | other c data => exact h.proper.2
  | _ => exact hknown _ (by simp [DhcpOption.code, knownCodes])

theorem decode_other {code : UInt8} (h : code ∉ knownCodes) (data : Bytes) :
    DhcpOption.decode code data = .ok (.other code data) := by
  simp only [knownCodes, List.mem_cons, List.not_mem_nil, or_false, not_or] at h
  obtain ⟨h1, h2, h3, h4, h5, h6, h7, h8, h9, h10, h11, h12⟩ := h
  simp only [DhcpOption.decode, h1, h2, h3, h4, h5, h6, h7, h8, h9, h10, h11, h12, if_false]

/-- **A well-formed option is read back unchanged.** -/
theorem DhcpOption.WellFormed.reads {o : DhcpOption} (h : o.WellFormed) : Reads o o := by
  have htake : o.data.take 255 = o.data := List.take_of_length_le h.fits
  refine ⟨h.framing, ?_⟩
  rw [htake]
  cases o with
  | subnetMask a => exact congrArg (Except.map _) (ipv4_toList a)
  | router l => exact congrArg (Except.map _) (ipv4List_flatMap h.proper.1)
  | dns l => exact congrArg (Except.map _) (ipv4List_flatMap h.proper.1)
  | hostName name => exact congrArg (fun s => Except.ok (hostName s)) (Text.lossy_toUTF8 name)
  | requestedIp a => exact congrArg (Except.map _) (ipv4_toList a)
  | leaseTime v => exact congrArg (Except.map _) (beU32_toBE v)
  | messageType type =>
    exact congrArg (fun t => Except.ok (messageType t)) (fromCode_code h.proper)
  | serverId a => exact congrArg (Except.map _) (ipv4_toList a)
  | parameterRequest data => rfl
  | t1 v => exact congrArg (Except.map _) (beU32_toBE v)
  | t2 v => exact congrArg (Except.map _) (beU32_toBE v)
  | clientId data => rfl
  | other c data => exact decode_other h.proper.1 data

/-! ## The option area -/

theorem decodeFrom_option {o o' : DhcpOption} (h : Reads o o') (fuel : ℕ) (after : Bytes)
    (out : List DhcpOption) (overload : UInt8) :
    decodeFrom (fuel + 1) (o.encode ++ after) out overload =
      decodeFrom fuel after (out ++ [o']) overload := by
  obtain ⟨hcode, hdecode⟩ := h
  simp only [framingCodes, List.mem_cons, List.not_mem_nil, or_false, not_or] at hcode
  obtain ⟨hpad, hoverload, hend⟩ := hcode
  have hlen : (UInt8.ofNat (min o.data.length 255)).toNat = min o.data.length 255 := by
    rw [UInt8.toNat_ofNat']
    omega
  have hvalue : o.data.take (min o.data.length 255) = o.data.take 255 := by
    rw [← List.take_take, List.take_of_length_le (l := o.data.take 255) (by simp)]
  have hwidth : (o.data.take 255).length = min o.data.length 255 := by
    rw [List.length_take, Nat.min_comm]
  simp only [DhcpOption.encode, tlv, List.cons_append, decodeFrom, hpad, hoverload, hend, if_false,
    hlen, hvalue]
  rw [if_neg (by rw [List.length_append, hwidth]; omega), ← hwidth, List.take_left, List.drop_left,
    hdecode]

/-- **An option area is read back option by option.** -/
theorem decodeFrom_encodeAll {options options' : List DhcpOption}
    (h : List.Forall₂ Reads options options') (rest : Bytes) (out : List DhcpOption)
    (overload : UInt8) (fuel : ℕ) (hfuel : options.length < fuel) :
    decodeFrom fuel (encodeAll options ++ rest) out overload = .ok (overload, out ++ options') := by
  induction h generalizing out fuel with
  | nil =>
    obtain ⟨fuel, rfl⟩ := Nat.exists_eq_add_of_lt hfuel
    rw [List.append_nil]
    rfl
  | @cons o o' options options' ho _ ih =>
    obtain ⟨fuel, rfl⟩ := Nat.exists_eq_add_of_lt (Nat.zero_lt_of_lt hfuel)
    have happ : encodeAll (o :: options) ++ rest = o.encode ++ (encodeAll options ++ rest) := by
      simp only [encodeAll, List.flatMap_cons, List.append_assoc]
    rw [happ, Nat.zero_add, decodeFrom_option ho, ih _ _ (by simp at hfuel; omega),
      List.append_assoc, List.singleton_append]

theorem lt_length_encodeAll (options : List DhcpOption) :
    options.length < (encodeAll options).length := by
  induction options with
  | nil => simp [encodeAll]
  | cons o options ih =>
    simp only [encodeAll, List.flatMap_cons, List.length_append, DhcpOption.encode, tlv,
      List.length_cons] at ih ⊢
    omega

theorem decodeInto_encodeAll {options options' : List DhcpOption}
    (h : List.Forall₂ Reads options options') (rest : Bytes) :
    decodeInto (encodeAll options ++ rest) [] = .ok (0, options') := by
  have hfuel : options.length < (encodeAll options ++ rest).length := by
    rw [List.length_append]
    exact Nat.lt_add_right _ (lt_length_encodeAll options)
  rw [decodeInto, decodeFrom_encodeAll h rest [] 0 _ hfuel, List.nil_append]

/-! ## Text fields -/

theorem length_textOut (value : String) {width : ℕ} (h : 0 < width) :
    (textOut value width).length = width := by
  rw [textOut, List.length_append, List.length_replicate, List.length_take]
  omega

/-- **A text that leaves room for its NUL is read back.** -/
theorem textField_textOut {value : String} {width : ℕ} (h : value.toUTF8.toList.length < width)
    (hnul : 0 ∉ value.toUTF8.toList) : textField (textOut value width) = value := by
  have htake : value.toUTF8.toList.take (width - 1) = value.toUTF8.toList :=
    List.take_of_length_le (by omega)
  obtain ⟨n, hn⟩ := Nat.exists_eq_add_of_lt h
  have hpad : width - value.toUTF8.toList.length = n + 1 := by omega
  have htext : (textOut value width).takeWhile (· ≠ 0) = value.toUTF8.toList := by
    rw [textOut, htake, hpad, List.replicate_succ, List.takeWhile_append_of_pos]
    · simp
    · intro b hb
      have hne : b ≠ 0 := fun h0 => hnul (h0 ▸ hb)
      simpa using hne
  rw [textField, htext, Text.lossy_toUTF8]

/-! ## The fixed part -/

theorem between_append {lo hi : ℕ} (a v b : Bytes) (ha : a.length = lo) (hv : lo + v.length = hi) :
    between lo hi (a ++ (v ++ b)) = v := by
  subst ha hv
  rw [between, ← List.append_assoc, ← List.length_append, List.take_left, List.drop_left]

namespace Message

/-- The message up to its option area. -/
def addresses (m : Message) : Bytes :=
  [m.op, m.htype, m.hlen, m.hops] ++ (Bytes.toBE 4 m.xid.toNat ++ (Bytes.toBE 2 m.secs.toNat ++
    (Bytes.toBE 2 m.flags.toNat ++ (m.ciaddr.toList ++ (m.yiaddr.toList ++ (m.siaddr.toList ++
      (m.giaddr.toList ++ m.chaddr.toList)))))))

/-- The padding behind the option area. -/
def padding (m : Message) : Bytes := List.replicate (minLen - m.unpadded.length) optPad

theorem encode_eq (m : Message) : m.encode = m.addresses ++ (textOut m.sname (offFile - offSname) ++
    (textOut m.file (fixedLen - offFile) ++ (magicCookie ++
      (encodeAll m.options ++ m.padding)))) := by
  simp only [encode, unpadded, addresses, padding, List.append_assoc]

@[simp] theorem length_addresses (m : Message) : m.addresses.length = offSname := by
  simp [addresses, offSname]

section Fields

variable (m : Message) (tail : Bytes)

theorem xid_addresses : be32 (Bytes.slice 4 4 (m.addresses ++ tail)).toList = m.xid := by
  simp [be32, addresses, Bytes.slice_cons, Bytes.ofBE_slice_toBE]

theorem secs_addresses :
    UInt16.ofNat (Bytes.ofBE (Bytes.slice 8 2 (m.addresses ++ tail)).toList) = m.secs := by
  simp [addresses, Bytes.slice_cons, Bytes.slice_append_right, Bytes.ofBE_slice_toBE]

theorem flags_addresses :
    UInt16.ofNat (Bytes.ofBE (Bytes.slice 10 2 (m.addresses ++ tail)).toList) = m.flags := by
  simp [addresses, Bytes.slice_cons, Bytes.slice_append_right, Bytes.ofBE_slice_toBE]

theorem ciaddr_addresses : Bytes.slice 12 4 (m.addresses ++ tail) = m.ciaddr := by
  simp [addresses, Bytes.slice_cons, Bytes.slice_append_right, Bytes.slice_zero_append]

theorem yiaddr_addresses : Bytes.slice 16 4 (m.addresses ++ tail) = m.yiaddr := by
  simp [addresses, Bytes.slice_cons, Bytes.slice_append_right, Bytes.slice_zero_append]

theorem siaddr_addresses : Bytes.slice 20 4 (m.addresses ++ tail) = m.siaddr := by
  simp [addresses, Bytes.slice_cons, Bytes.slice_append_right, Bytes.slice_zero_append]

theorem giaddr_addresses : Bytes.slice 24 4 (m.addresses ++ tail) = m.giaddr := by
  simp [addresses, Bytes.slice_cons, Bytes.slice_append_right, Bytes.slice_zero_append]

theorem chaddr_addresses : Bytes.slice 28 16 (m.addresses ++ tail) = m.chaddr := by
  simp [addresses, Bytes.slice_cons, Bytes.slice_append_right, Bytes.slice_zero_append]

end Fields

/-- **A message is read back field by field.** -/
theorem decode_encode_of {m : Message} {options : List DhcpOption}
    (h : List.Forall₂ Reads m.options options) :
    decode m.encode = .ok { m with
      sname := textField (textOut m.sname (offFile - offSname))
      file := textField (textOut m.file (fixedLen - offFile))
      options := options } := by
  have hsname : (textOut m.sname (offFile - offSname)).length = 64 := length_textOut _ (by decide)
  have hfile : (textOut m.file (fixedLen - offFile)).length = 128 := length_textOut _ (by decide)
  have hbetween : between offSname offFile m.encode = textOut m.sname (offFile - offSname) := by
    rw [encode_eq]
    exact between_append _ _ _ m.length_addresses (by rw [hsname])
  have hbetween' : between offFile fixedLen m.encode = textOut m.file (fixedLen - offFile) := by
    rw [encode_eq, ← List.append_assoc]
    exact between_append _ _ _ (by simp [hsname]) (by rw [hfile])
  have hcookie : between fixedLen (fixedLen + 4) m.encode = magicCookie := by
    rw [encode_eq, ← List.append_assoc, ← List.append_assoc]
    exact between_append _ _ _ (by simp [hsname, hfile]) rfl
  have hdrop : m.encode.drop (fixedLen + 4) = encodeAll m.options ++ m.padding := by
    rw [encode_eq, ← List.append_assoc, ← List.append_assoc, ← List.append_assoc]
    exact List.drop_left' (by simp [hsname, hfile, magicCookie])
  have hlen : ¬ m.encode.length < fixedLen + 4 := by
    simp only [encode_eq, List.length_append, length_addresses, hsname, hfile, magicCookie,
      List.length_cons, List.length_nil, offSname, fixedLen]
    omega
  rw [decode, if_neg hlen, if_neg (not_not.mpr hcookie), hdrop, decodeInto_encodeAll h, hbetween,
    hbetween']
  -- the encoder writes no overload option, so both text fields hold text
  change Except.ok _ = Except.ok _
  rw [encode_eq, xid_addresses, secs_addresses, flags_addresses, ciaddr_addresses, yiaddr_addresses,
    siaddr_addresses, giaddr_addresses, chaddr_addresses]
  rfl

/-! ## Well-formed messages -/

/-- The text is free of NUL and leaves room for one in a field of `width` octets. -/
def FitsField (value : String) (width : ℕ) : Prop :=
  value.toUTF8.toList.length < width ∧ 0 ∉ value.toUTF8.toList

instance (value : String) (width : ℕ) : Decidable (FitsField value width) :=
  inferInstanceAs (Decidable (_ ∧ _))

theorem fitsField_empty {width : ℕ} (h : 0 < width) : FitsField "" width := by
  have hempty : "".toUTF8.toList = [] := Text.toList_toUTF8 ""
  rw [FitsField, hempty]
  exact ⟨h, List.not_mem_nil⟩

/-- A message as the encoder is meant to be given it. -/
structure WellFormed (m : Message) : Prop where
  options : ∀ o ∈ m.options, o.WellFormed
  sname : FitsField m.sname (offFile - offSname)
  file : FitsField m.file (fixedLen - offFile)

theorem WellFormed.decode_encode {m : Message} (h : m.WellFormed) : decode m.encode = .ok m := by
  have hoptions : List.Forall₂ Reads m.options m.options :=
    List.forall₂_same.mpr fun o hmem => (h.options o hmem).reads
  rw [decode_encode_of hoptions, textField_textOut h.sname.1 h.sname.2,
    textField_textOut h.file.1 h.file.2]

theorem le_length_encode (m : Message) : minLen ≤ m.encode.length := by
  rw [encode, List.length_append, List.length_replicate]
  omega

/-! ## Decoded messages -/

/-- What decoding leaves open: whether the texts it has read fit the fields they came from. -/
structure TextsFit (m : Message) : Prop where
  hostName : ∀ name, .hostName name ∈ m.options → name.toUTF8.toList.length ≤ 255
  sname : FitsField m.sname (offFile - offSname)
  file : FitsField m.file (fixedLen - offFile)

theorem WellFormed.textsFit {m : Message} (h : m.WellFormed) : m.TextsFit :=
  ⟨fun _ hmem => (h.options _ hmem).fits, h.sname, h.file⟩

end Message

theorem flatMap_chunks4 {data : Bytes} (h : data.length % 4 = 0) :
    ((chunks4 data).flatMap fun a => a.toList) = data := by
  fun_induction chunks4 data with
  | case1 a b c d rest ih =>
    have hrest : rest.length % 4 = 0 := by
      simp only [List.length_cons] at h
      omega
    change [a, b, c, d] ++ (chunks4 rest).flatMap (fun a => a.toList) = _
    rw [ih hrest]
    rfl
  | case2 data hshort =>
    match data, h with
    | [], _ => rfl
    | [_], h | [_, _], h | [_, _, _], h => simp at h
    | a :: b :: c :: d :: rest, _ => exact absurd rfl (hshort a b c d rest)

/-- A decoded list is not empty, and writes the octets it was read from. -/
theorem ipv4List_eq_ok {data : Bytes} {l : List Ipv4Addr} (h : ipv4List data = .ok l) :
    l ≠ [] ∧ (l.flatMap fun a => a.toList) = data := by
  unfold ipv4List at h
  split_ifs at h with hbad
  cases h
  obtain ⟨hempty, hmod⟩ := not_or.mp hbad
  have hflat := flatMap_chunks4 (not_not.mp hmod)
  refine ⟨fun hnil => hempty ?_, hflat⟩
  rw [← hflat, hnil]
  rfl

theorem proper_fromCode (type : UInt8) :
    (DhcpOption.messageType (MessageType.fromCode type)).Proper := by
  unfold MessageType.fromCode
  split_ifs with h1 h2 h3 h4 h5 h6 h7 h8
  case neg => simp [DhcpOption.Proper, h1, h2, h3, h4, h5, h6, h7, h8]
  all_goals trivial

/-- What is known of a decoded option: it is proper, and its value fits unless it is a name. -/
def DhcpOption.Decoded (o : DhcpOption) : Prop :=
  o.Proper ∧ (o.data.length ≤ 255 ∨ ∃ name, o = .hostName name)

/-- **A decoded option is proper**, and its value is as long as it came, a name apart. -/
theorem decoded_of_decode {code : UInt8} {data : Bytes} {o : DhcpOption}
    (hcode : code ∉ framingCodes) (hlen : data.length ≤ 255)
    (h : DhcpOption.decode code data = .ok o) : o.Decoded := by
  have haddr (mk : Ipv4Addr → DhcpOption) (hproper : ∀ a, (mk a).Proper)
      (hdata : ∀ a, (mk a).data = a.toList) (h : mk <$> ipv4 data = .ok o) :
      o.Decoded := by
    obtain ⟨a, -, rfl⟩ := Except.map_eq_ok.mp h
    exact ⟨hproper a, .inl (by rw [hdata, List.Vector.toList_length]; decide)⟩
  have hlist (mk : List Ipv4Addr → DhcpOption)
      (hproper : ∀ l, (mk l).Proper = (l ≠ [] ∧ l.length ≤ 63))
      (hdata : ∀ l, (mk l).data = l.flatMap fun a => a.toList) (h : mk <$> ipv4List data = .ok o) :
      o.Decoded := by
    obtain ⟨l, hl, rfl⟩ := Except.map_eq_ok.mp h
    obtain ⟨hne, hflat⟩ := ipv4List_eq_ok hl
    have hcount := length_flatMap l
    rw [hflat] at hcount
    rw [DhcpOption.Decoded, hproper, hdata, hflat]
    exact ⟨⟨hne, by omega⟩, .inl hlen⟩
  have hnumber (mk : UInt32 → DhcpOption) (hproper : ∀ v, (mk v).Proper)
      (hdata : ∀ v, (mk v).data = Bytes.toBE 4 v.toNat) (h : mk <$> beU32 data = .ok o) :
      o.Decoded := by
    obtain ⟨v, -, rfl⟩ := Except.map_eq_ok.mp h
    exact ⟨hproper v, .inl (by rw [hdata, Bytes.length_toBE]; decide)⟩
  by_cases hknown : code ∈ knownCodes
  · simp only [knownCodes, List.mem_cons, List.not_mem_nil, or_false] at hknown
    rcases hknown with rfl | rfl | rfl | rfl | rfl | rfl | rfl | rfl | rfl | rfl | rfl | rfl
    · exact haddr .subnetMask (fun _ => trivial) (fun _ => rfl) h
    · exact hlist .router (fun _ => rfl) (fun _ => rfl) h
    · exact hlist .dns (fun _ => rfl) (fun _ => rfl) h
    · cases h
      exact ⟨trivial, .inr ⟨_, rfl⟩⟩
    · exact haddr .requestedIp (fun _ => trivial) (fun _ => rfl) h
    · exact hnumber .leaseTime (fun _ => trivial) (fun _ => rfl) h
    · match data, h with
      | [type], h =>
        cases h
        exact ⟨proper_fromCode _, .inl (by simp [DhcpOption.data])⟩
    · exact haddr .serverId (fun _ => trivial) (fun _ => rfl) h
    · cases h
      exact ⟨trivial, .inl hlen⟩
    · exact hnumber .t1 (fun _ => trivial) (fun _ => rfl) h
    · exact hnumber .t2 (fun _ => trivial) (fun _ => rfl) h
    · cases h
      exact ⟨trivial, .inl hlen⟩
  · have hother := decode_other hknown data
    rw [hother] at h
    cases h
    exact ⟨⟨hknown, hcode⟩, .inl hlen⟩

theorem decoded_decodeFrom {fuel : ℕ} {buf : Bytes} {out options : List DhcpOption}
    {overload bits : UInt8} (h : decodeFrom fuel buf out overload = .ok (bits, options))
    (hout : ∀ o ∈ out, o.Decoded) : ∀ o ∈ options, o.Decoded := by
  fun_induction decodeFrom fuel buf out overload with
  | case1 | case2 | case4 =>
    cases h
    exact hout
  | case3 fuel rest out overload ih => exact ih h hout
  | case5 | case6 | case8 | case10 => cases h
  | case7 fuel out overload len rest hlen data after bits' hbits hpad hend ih => exact ih h hout
  | case9 fuel code out overload hpad hend len rest hlen data after hoverload o ho ih =>
    have hcode : code ∉ framingCodes := by
      simp only [framingCodes, List.mem_cons, List.not_mem_nil, or_false, not_or]
      exact ⟨hpad, hoverload, hend⟩
    have hfits : data.length ≤ 255 := by
      rw [List.length_take]
      have := len.toNat_lt
      omega
    refine ih h fun o' hmem => ?_
    rcases List.mem_append.mp hmem with hmem | hmem
    · exact hout o' hmem
    · rw [List.mem_singleton.mp hmem]
      exact decoded_of_decode hcode hfits ho

theorem decoded_fieldOr {overloaded : Bool} {field : Bytes} {options options' : List DhcpOption}
    {text : String} (h : Message.fieldOr overloaded field options = .ok (text, options'))
    (hout : ∀ o ∈ options, o.Decoded) : ∀ o ∈ options', o.Decoded := by
  cases overloaded with
  | false =>
    cases h
    exact hout
  | true =>
    obtain ⟨⟨bits, out⟩, harea, hret⟩ := Except.bind_eq_ok.mp h
    cases hret
    exact decoded_decodeFrom harea hout

namespace Message

theorem decoded_of_decode {buf : Bytes} {m : Message} (h : decode buf = .ok m) :
    ∀ o ∈ m.options, o.Decoded := by
  unfold decode at h
  split_ifs at h
  obtain ⟨⟨overload, area⟩, harea, h⟩ := Except.bind_eq_ok.mp h
  obtain ⟨⟨file, area'⟩, hfile, h⟩ := Except.bind_eq_ok.mp h
  obtain ⟨⟨sname, area''⟩, hsname, h⟩ := Except.bind_eq_ok.mp h
  cases h
  exact decoded_fieldOr hsname (decoded_fieldOr hfile (decoded_decodeFrom harea fun _ hmem =>
    absurd hmem List.not_mem_nil))

/-- **What decodes is well formed exactly when its texts fit**, whichever fields carried options. -/
theorem wellFormed_iff {buf : Bytes} {m : Message} (h : decode buf = .ok m) :
    m.WellFormed ↔ m.TextsFit := by
  refine ⟨WellFormed.textsFit, fun htexts => ⟨fun o hmem => ?_, htexts.sname, htexts.file⟩⟩
  obtain ⟨hproper, hfits | ⟨name, rfl⟩⟩ := decoded_of_decode h o hmem
  · exact ⟨hfits, hproper⟩
  · exact ⟨htexts.hostName name hmem, hproper⟩

/-- **DHCP messages round trip.** A well-formed message is read back unchanged from at least 300
octets; and what was decoded from any datagram, if its texts fit, is read back after encoding. -/
theorem round_trips :
    (∀ m : Message, m.WellFormed → decode m.encode = .ok m ∧ minLen ≤ m.encode.length) ∧
      ∀ (buf : Bytes) (m : Message), decode buf = .ok m →
        (m.WellFormed ↔ m.TextsFit) ∧ (m.WellFormed → decode m.encode = .ok m) :=
  ⟨fun m h => ⟨h.decode_encode, m.le_length_encode⟩,
    fun _ _ hdecode => ⟨wellFormed_iff hdecode, WellFormed.decode_encode⟩⟩

/-- A DISCOVER with texts in both its fields. -/
def sample : Message :=
  { request 0xdeadbeef (.zero 6) with
    flags := flagBroadcast
    secs := 4
    sname := "corvus"
    file := "pxelinux.0"
    options := [.messageType .discover, .requestedIp (.replicate 4 1), .hostName "raven",
      .router [.replicate 4 2, .replicate 4 3], .other 82 [0xde, 0xad]] }

theorem sample_wellFormed : sample.WellFormed := by
  refine ⟨fun o hmem => ?_, by decide +kernel, by decide +kernel⟩
  simp only [sample, List.mem_cons, List.not_mem_nil, or_false] at hmem
  rcases hmem with rfl | rfl | rfl | rfl | rfl
  · exact ⟨by decide, trivial⟩
  · exact ⟨by decide, trivial⟩
  · exact ⟨by decide +kernel, trivial⟩
  · exact ⟨by decide, by simp [DhcpOption.Proper]⟩
  · exact ⟨by decide, by simp only [DhcpOption.Proper]; decide⟩

/-- The same with the two fields carrying a lease time and a server. -/
def sampleOverloaded : Bytes :=
  Bytes.splice offSname [54, 4, 192, 168, 1, 1, optEnd]
    (Bytes.splice offFile [51, 4, 0, 0, 0xa8, 0xc0, optEnd]
      { sample with options := [.other optOverload [overloadFile ||| overloadSname]] }.encode)

theorem round_trips_sample :
    (decode sample.encode = .ok sample ∧ minLen ≤ sample.encode.length) ∧
      ∃ m, decode sampleOverloaded = .ok m ∧ m.options.length = 2 ∧ decode m.encode = .ok m := by
  have hdecode : decode sampleOverloaded = .ok { sample with
      sname := ""
      file := ""
      options := [.leaseTime 43200, .serverId ⟨[192, 168, 1, 1], rfl⟩] } := by decide +kernel
  refine ⟨round_trips.1 sample sample_wellFormed, _, hdecode, rfl, ?_⟩
  obtain ⟨hiff, hagain⟩ := round_trips.2 _ _ hdecode
  exact hagain (hiff.mpr ⟨by simp, by decide +kernel, by decide +kernel⟩)

end Message

end Dhcp

end Caw
