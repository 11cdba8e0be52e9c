import Ipk24Chat.Client
import Ipk24Chat.RoundTrip
import Ipk24Chat.Scanning

/-!
# Which datagrams the decoder takes apart

`disassebleProtocolUDP` trusts the server: a datagram that is too short or has no
terminator is read as if it were complete, and an empty field ends the process.

* `decodesSafely_iff`: it does what a decoder should exactly if the type is unknown, or
  all fields are there and none is empty.
-/

namespace Ipk24Chat

/-- Takes `k` fields, each with a zero byte behind it, from the front. -/
def takeFields : Nat → List UInt8 → Option (List (List UInt8))
  | 0, _ => some []
  | k + 1, bytes =>
    match bytes.dropWhile (· != 0) with
    | [] => none
    | _ :: rest => (takeFields k rest).map (bytes.takeWhile (· != 0) :: ·)

/-- How many bytes stand in front of the fields of a message, and how many fields there
are. -/
def MsgType.layout : MsgType → Option (Nat × Nat)
  | .msgConf | .msgBye => some (3, 0)
  | .msgReply => some (6, 1)
  | .msgMsg | .msgJoin | .msgErr => some (3, 2)
  | .msgAuth => some (3, 3)
  | _ => none

/-- The fields of a datagram that is long enough and has its terminators. -/
def datagramFields (datagram : List UInt8) : Option (List (List UInt8)) :=
  match (uchar2msgType (datagram.headD 0)).layout with
  | none => none
  | some (front, k) =>
    if front ≤ datagram.length then takeFields k (datagram.drop front) else none

/-- A block lies inside the first `n` bytes. -/
def BytesBlock.Inside (b : BytesBlock) (n : Nat) : Prop :=
  0 ≤ b.len ∧ ∀ p, b.start = some p → 0 ≤ p.off ∧ p.off + b.len ≤ n

theorem BytesBlock.Inside.of_ptr {m : Memory} {off len : Int} {n : Nat} (before : 0 ≤ off)
    (nonneg : 0 ≤ len) (behind : off + len ≤ n) : BytesBlock.Inside ⟨some ⟨m, off⟩, len⟩ n := by
  refine ⟨nonneg, fun q same => ?_⟩
  obtain rfl := Option.some.inj same
  exact ⟨before, behind⟩

/-- All four blocks of a message. -/
def ProtocolBlocks.all (b : ProtocolBlocks) : List BytesBlock :=
  [b.zeroth, b.first, b.second, b.third]

/-- What is asked of the decoder: it returns, the blocks it reports lie inside the
datagram, and a datagram with a part missing is of no known type. -/
def DecodesSafely (rx : Buffer) : Prop :=
  ∃ d, disassebleProtocolUDP rx = .ok d ∧
    (∀ b ∈ d.pBlocks.all, b.len ≠ 0 → b.Inside rx.used) ∧
    (datagramFields rx.bytes = none → d.pBlocks.type = MsgType.msgUnknown.toUChar)

/-- The type is unknown, or every field is there and has a byte. -/
def Readable (datagram : List UInt8) : Prop :=
  (uchar2msgType (datagram.headD 0)).layout = none ∨
    ∃ fields, datagramFields datagram = some fields ∧ [] ∉ fields

theorem takeFields_succ {k : Nat} {bytes : List UInt8} {fields : List (List UInt8)}
    (h : takeFields (k + 1) bytes = some fields) :
    ∃ f rest others, bytes = f ++ 0 :: rest ∧ 0 ∉ f ∧ takeFields k rest = some others ∧
      fields = f :: others := by
  simp only [takeFields] at h
  rcases exists_split (· == 0) bytes with clear | ⟨a, c, b, rfl, before, hit⟩
  · have none : bytes.dropWhile (· != 0) = [] := dropWhile_clear clear
    simp [none] at h
  · obtain rfl : c = 0 := by simpa using hit
    have front : (a ++ 0 :: b).takeWhile (· != 0) = a := takeWhile_split before hit
    have back : (a ++ 0 :: b).dropWhile (· != 0) = 0 :: b := dropWhile_split before hit
    rw [front, back] at h
    obtain ⟨others, taken, rfl⟩ := Option.map_eq_some_iff.mp h
    refine ⟨a, b, others, rfl, fun zero => ?_, taken, rfl⟩
    simpa using before 0 zero

theorem findZeroInString_empty {p : CharPtr} (zero : p.get 0 = 0) (len : Int) :
    ∃ f, findZeroInString p len = .error f := by
  have first : p.mem p.off = 0 := by simpa [CharPtr.get] using zero
  have none : (p.scan (· == 0) (unsigned len)).getD (unsigned len) = 0 := by
    cases unsigned len with
    | zero => rfl
    | succ n => simp [CharPtr.scan, Memory.scan, first]
  simp only [findZeroInString, none]
  exact ⟨_, rfl⟩

/-- One field: its length is found if it is not empty, and the rest stands behind its
zero byte. -/
theorem findZeroInString_cases {p : CharPtr} {f rest : List UInt8} {len : Int}
    (spelled : p.Spells (f ++ 0 :: rest)) (clear : 0 ∉ f) (bound : f.length < len) :
    (f = [] → ∃ failure, findZeroInString p len = .error failure) ∧
      (f ≠ [] → findZeroInString p len = .ok f.length) ∧
      (BytesBlock.endPtrWithZeroByte p f.length).Spells rest := by
  refine ⟨fun empty => ?_, fun nonempty => ?_, ?_⟩
  · subst empty
    exact findZeroInString_empty spelled.head len
  · exact findZeroInString_field ⟨nonempty, clear⟩ spelled.left spelled.get bound
  · have behind : ((p.shift f.length).shift 1).Spells rest :=
      CharPtr.Spells.right (a := [0]) spelled.right
    simpa [BytesBlock.endPtrWithZeroByte] using behind

/-- The scans of the decoder for `k` fields in a row, each behind the zero byte of the
one before. The bound does not count these zero bytes. -/
def findFields : Nat → CharPtr → Int → Except Failure (List Int)
  | 0, _, _ => .ok []
  | k + 1, p, len => do
    let index ← findZeroInString p len
    let others ← findFields k (BytesBlock.endPtrWithZeroByte p index) (len - index)
    return index :: others

theorem findFields_cases {k : Nat} {p : CharPtr} {bytes : List UInt8} {len : Int}
    {fields : List (List UInt8)} (spelled : p.Spells bytes)
    (taken : takeFields k bytes = some fields) (bound : bytes.length ≤ len) :
    ([] ∈ fields → ∃ failure, findFields k p len = .error failure) ∧
      ([] ∉ fields → findFields k p len = .ok (fields.map fun f => (f.length : Int))) ∧
      fields.length = k ∧ (fields.map List.length).sum + k ≤ bytes.length := by
  induction k generalizing p bytes len fields with
  | zero =>
    cases taken
    exact ⟨nofun, fun _ => rfl, rfl, Nat.zero_le _⟩
  | succ k ih =>
    obtain ⟨f, rest, others, rfl, clear, remaining, rfl⟩ := takeFields_succ taken
    simp only [List.length_append, List.length_cons] at bound
    obtain ⟨empty, found, behind⟩ := findZeroInString_cases spelled clear
      (show (f.length : Int) < len by omega)
    obtain ⟨failed, ok, count, total⟩ := ih behind remaining
      (show (rest.length : Int) ≤ len - f.length by omega)
    refine ⟨fun gap => ?_, fun full => ?_, by simp [count], by simp; omega⟩
    · by_cases absent : f = []
      · obtain ⟨failure, stop⟩ := empty absent
        exact ⟨failure, by rw [findFields, stop]; rfl⟩
      · have later : [] ∈ others := by simpa [Ne.symm absent] using gap
        obtain ⟨failure, stop⟩ := failed later
        refine ⟨failure, ?_⟩
        rw [findFields, found absent]
        simp only [bind, Except.bind]
        rw [stop]
    · have given : f ≠ [] ∧ [] ∉ others := by
        simpa [eq_comm] using full
      rw [findFields, found given.1]
      simp only [bind, Except.bind]
      rw [ok given.2]
      rfl

/-! ## The decoder -/

/-- The blocks the decoder makes of the lengths of `fields` that start behind `front`
bytes. -/
def blocksOf (rx : Buffer) (type : MsgType) (lens : List Int) : ProtocolBlocks :=
  let zeroth : CharPtr := ⟨rx.mem, 3⟩
  match type, lens with
  | .msgReply, [len] =>
    ⟨type.toUChar, ⟨some zeroth, 1⟩, ⟨some ⟨rx.mem, 4⟩, 2⟩, ⟨some ⟨rx.mem, 6⟩, len⟩, .null, false⟩
  | _, [len, index] =>
    ⟨type.toUChar, ⟨some zeroth, len⟩, ⟨some (BytesBlock.endPtrWithZeroByte zeroth len), index⟩,
      .null, .null, false⟩
  | _, [username, displayname, secret] =>
    let first := BytesBlock.endPtrWithZeroByte zeroth username
    ⟨type.toUChar, ⟨some zeroth, username⟩, ⟨some first, displayname⟩,
      ⟨some (BytesBlock.endPtrWithZeroByte first displayname), secret⟩, .null, false⟩
  | _, _ => ⟨type.toUChar, ⟨some zeroth, 0⟩, .null, .null, .null, false⟩

section
variable {rx : Buffer} {type : MsgType} (first : uchar2msgType (rx.mem 0) = type)
include first

/-- The decoder never changes its mind about the type. -/
theorem disassebleProtocolUDP_known {d : Disassembled} (known : type.layout ≠ none)
    (h : disassebleProtocolUDP rx = .ok d) : d.pBlocks.type = type.toUChar := by
  simp only [disassebleProtocolUDP, CharPtr.get, Int.zero_add, first] at h
  cases type <;> try exact absurd rfl known
  all_goals
    simp only [bind, Except.bind, pure, Except.pure] at h
    repeat' split at h
    all_goals cases h
    all_goals rfl

theorem disassebleProtocolUDP_unknown (unknown : type.layout = none) :
    disassebleProtocolUDP rx = .ok
      ⟨⟨MsgType.msgUnknown.toUChar, ⟨some ⟨rx.mem, 3⟩, 0⟩, .null, .null, .null, false⟩,
        convert2BytesToU16Int (rx.mem 1) (rx.mem 2)⟩ := by
  simp only [disassebleProtocolUDP, CharPtr.get, CharPtr.shift, Int.zero_add, first]
  cases type <;> first | rfl | cases unknown

/-- The decoder looks for the fields of its layout and makes blocks of them. -/
theorem disassebleProtocolUDP_eq {front k : Nat} (layout : type.layout = some (front, k)) :
    ∃ id, disassebleProtocolUDP rx =
      (findFields k ⟨rx.mem, front⟩ (rx.used - front)).map fun lens =>
        ⟨blocksOf rx type lens, id⟩ := by
  have next (a b : Int) (n : Nat) : (n : Int) - (a + b) = n - a - b := by omega
  refine ⟨convert2BytesToU16Int (rx.mem 1) (rx.mem 2), ?_⟩
  unfold disassebleProtocolUDP
  simp only [CharPtr.get, CharPtr.shift, Int.zero_add, first, typeIdLen, next,
    BytesBlock.endPtr]
  cases type <;> cases layout
  case msgConf => rfl
  case msgBye => rfl
  all_goals
    simp only [findFields, bind, Except.bind, pure, Except.pure]
  case msgReply =>
    rw [show (rx.used : Int) - 3 - 1 - 2 = rx.used - 6 by omega]
    cases found : findZeroInString ⟨rx.mem, 6⟩ ((rx.used : Int) - 6) <;>
      simp only [found, Int.reduceAdd] <;> rfl
  all_goals
    cases findZeroInString ⟨rx.mem, 3⟩ ((rx.used : Int) - 3) with
    | error f => rfl
    | ok i =>
      simp only
      cases findZeroInString (BytesBlock.endPtrWithZeroByte ⟨rx.mem, 3⟩ i)
        ((rx.used : Int) - 3 - i) with
      | error f => rfl
      | ok j =>
        first
        | rfl
        | simp only
          cases findZeroInString (BytesBlock.endPtrWithZeroByte (BytesBlock.endPtrWithZeroByte
            ⟨rx.mem, 3⟩ i) j) ((rx.used : Int) - 3 - i - j) <;> rfl

omit first

/-- Blocks made of fields that are there lie inside the datagram. -/
theorem blocksOf_inside {front k : Nat} (layout : type.layout = some (front, k))
    {fields : List (List UInt8)} (count : fields.length = k)
    (total : front + ((fields.map List.length).sum + k) ≤ rx.used) :
    ∀ b ∈ (blocksOf rx type (fields.map fun f => (f.length : Int))).all,
      b.len ≠ 0 → b.Inside rx.used := by
  have bare (type : UInt8) : ∀ b ∈ ProtocolBlocks.all
      ⟨type, ⟨some ⟨rx.mem, 3⟩, 0⟩, .null, .null, .null, false⟩, b.len ≠ 0 → b.Inside rx.used := by
    simp only [ProtocolBlocks.all, List.forall_mem_cons]
    exact ⟨absurd rfl, absurd rfl, absurd rfl, absurd rfl, List.forall_mem_nil _⟩
  have pair (type : UInt8) {len index : Nat} (total : 3 + (len + (index + 0) + 2) ≤ rx.used) :
      ∀ b ∈ ProtocolBlocks.all ⟨type, ⟨some ⟨rx.mem, 3⟩, len⟩,
        ⟨some (BytesBlock.endPtrWithZeroByte ⟨rx.mem, 3⟩ len), index⟩, .null, .null, false⟩,
        b.len ≠ 0 → b.Inside rx.used := by
    simp only [ProtocolBlocks.all, List.forall_mem_cons, BytesBlock.endPtrWithZeroByte,
      CharPtr.shift]
    refine ⟨fun _ => ?_, fun _ => ?_, absurd rfl, absurd rfl, List.forall_mem_nil _⟩
    · apply BytesBlock.Inside.of_ptr <;> omega
    · apply BytesBlock.Inside.of_ptr <;> omega
  cases type <;> cases layout
  case msgConf =>
    obtain rfl := List.eq_nil_of_length_eq_zero count
    exact bare _
  case msgBye =>
    obtain rfl := List.eq_nil_of_length_eq_zero count
    exact bare _
  case msgReply =>
    obtain ⟨f, rfl⟩ := List.length_eq_one_iff.mp count
    simp only [List.map_cons, List.map_nil, List.sum_cons, List.sum_nil] at total
    simp only [blocksOf, List.map_cons, List.map_nil, ProtocolBlocks.all,
      List.forall_mem_cons]
    refine ⟨fun _ => ?_, fun _ => ?_, fun _ => ?_, absurd rfl, List.forall_mem_nil _⟩
    · apply BytesBlock.Inside.of_ptr <;> omega
    · apply BytesBlock.Inside.of_ptr <;> omega
    · apply BytesBlock.Inside.of_ptr <;> omega
  case msgAuth =>
    obtain ⟨f, g, h, rfl⟩ := List.length_eq_three.mp count
    simp only [List.map_cons, List.map_nil, List.sum_cons, List.sum_nil] at total
    simp only [blocksOf, List.map_cons, List.map_nil, ProtocolBlocks.all,
      List.forall_mem_cons, BytesBlock.endPtrWithZeroByte, CharPtr.shift]
    refine ⟨fun _ => ?_, fun _ => ?_, fun _ => ?_, absurd rfl, List.forall_mem_nil _⟩
    · apply BytesBlock.Inside.of_ptr <;> omega
    · apply BytesBlock.Inside.of_ptr <;> omega
    · apply BytesBlock.Inside.of_ptr <;> omega
  all_goals
    obtain ⟨f, g, rfl⟩ := List.length_eq_two.mp count
    exact pair _ total

end

theorem datagramFields_eq {datagram : List UInt8} {front k : Nat}
    (layout : (uchar2msgType (datagram.headD 0)).layout = some (front, k)) :
    datagramFields datagram =
      if front ≤ datagram.length then takeFields k (datagram.drop front) else none := by
  simp only [datagramFields, layout]

/-- The scans of the decoder behind the first `front` bytes of a datagram. -/
theorem findFields_drop {rx : Buffer} {front k : Nat} {fields : List (List UInt8)}
    (fits : front ≤ rx.bytes.length) (given : takeFields k (rx.bytes.drop front) = some fields) :
    ([] ∈ fields → ∃ failure, findFields k ⟨rx.mem, front⟩ (rx.used - front) = .error failure) ∧
      ([] ∉ fields → findFields k ⟨rx.mem, front⟩ (rx.used - front) =
        .ok (fields.map fun f => (f.length : Int))) ∧
      fields.length = k ∧ front + ((fields.map List.length).sum + k) ≤ rx.used := by
  have long : rx.bytes.length = rx.used := Memory.length_read _ _ _
  have spelled : CharPtr.Spells ⟨rx.mem, front⟩ (rx.bytes.drop front) := by
    have whole : CharPtr.Spells ⟨rx.mem, 0⟩ (rx.bytes.take front ++ rx.bytes.drop front) := by
      rw [List.take_append_drop, CharPtr.Spells, long]
      rfl
    have behind := whole.right
    simpa [CharPtr.shift, fits] using behind
  have bound : ((rx.bytes.drop front).length : Int) ≤ rx.used - front := by
    rw [List.length_drop, long]
    omega
  obtain ⟨failed, found, count, total⟩ := findFields_cases spelled given bound
  refine ⟨failed, found, count, ?_⟩
  rw [List.length_drop, long] at total
  omega

theorem decodesSafely_iff {rx : Buffer} (nonempty : 1 ≤ rx.used) :
    DecodesSafely rx ↔ Readable rx.bytes := by
  have head : rx.bytes.headD 0 = rx.mem 0 := by
    obtain ⟨n, more⟩ : ∃ n, rx.used = n + 1 := ⟨rx.used - 1, by omega⟩
    rw [Buffer.bytes, more, Memory.read_cons]
    rfl
  unfold DecodesSafely Readable
  cases layout : (uchar2msgType (rx.bytes.headD 0)).layout with
  | none =>
    simp only [true_or, iff_true]
    rw [head] at layout
    refine ⟨_, disassebleProtocolUDP_unknown rfl layout, ?_, fun _ => rfl⟩
    simp only [ProtocolBlocks.all, List.forall_mem_cons]
    exact ⟨absurd rfl, absurd rfl, absurd rfl, absurd rfl, List.forall_mem_nil _⟩
  | some shape =>
    obtain ⟨front, k⟩ := shape
    have known := layout
    rw [head] at known
    have fields := datagramFields_eq layout
    obtain ⟨id, decoded⟩ := disassebleProtocolUDP_eq rfl known
    cases given : datagramFields rx.bytes with
    | none =>
      constructor
      · rintro ⟨d, ok, -, unknown⟩
        have type := disassebleProtocolUDP_known rfl (by simp [known]) ok
        rw [unknown rfl] at type
        cases other : uchar2msgType (rx.mem 0) <;> simp [other, MsgType.toUChar] at type
        simp [other, MsgType.layout] at known
      · rintro (none | ⟨parts, found, -⟩)
        · cases none
        · cases found
    | some parts =>
      rw [fields] at given
      split at given
      case isFalse => cases given
      rename_i fits
      obtain ⟨failed, found, count, total⟩ := findFields_drop fits given
      constructor
      · rintro ⟨d, ok, -, -⟩
        refine Or.inr ⟨parts, rfl, fun gap => ?_⟩
        obtain ⟨failure, stop⟩ := failed gap
        rw [decoded, stop] at ok
        cases ok
      · rintro (none | ⟨others, same, full⟩)
        · cases none
        · obtain rfl := Option.some.inj same
          refine ⟨⟨_, id⟩, ?_, blocksOf_inside known count total, by rintro ⟨⟩⟩
          rw [decoded, found full]
          rfl

/-- The receive buffer with the given bytes in front of what was there before. -/
def arrived (bytes : List UInt8) : Buffer := Client.receive ⟨some fun _ => 0xC4, 1500, 0⟩ bytes

theorem decodesSafely_msg : DecodesSafely (arrived [4, 0, 0, 0x61, 0, 0x62, 0]) :=
  (decodesSafely_iff (by decide)).mpr (Or.inr ⟨[[0x61], [0x62]], by decide, by decide⟩)

/-- A message with empty contents ends the process. -/
theorem not_decodesSafely_empty : ¬ DecodesSafely (arrived [4, 0, 0, 0x61, 0, 0]) := by
  rintro ⟨d, ok, -⟩
  have stops : disassebleProtocolUDP (arrived [4, 0, 0, 0x61, 0, 0]) = .error
      ⟨"Internal error in findZeroInString(), '\\0' was not found", .errInternalBadArg⟩ := rfl
  rw [stops] at ok
  cases ok

end Ipk24Chat
