import Mathlib.Data.Nat.Digits.Defs
import RelayDescriptor.Grammar.NetworkStatus
import RelayDescriptor.Proofs.Field.KeyCounts
import RelayDescriptor.Proofs.Field.Timestamps
import RelayDescriptor.Proofs.Reading.Runs

/-!
# Written entries of routers

The line of a router is its nickname, its identity, perhaps the digest of its descriptor, a
moment, an address and two ports, with spaces between them.  No argument names itself, so the
digest is told from what follows it by the number of the arguments alone.
-/

namespace RelayDescriptor

variable {line value : Text} {n : Int}

/-! ## Readers of written values -/

theorem nickname_of_isNickname (shape : IsNickname value) : nickname line value = .ok value := by
  have accepted : isNickname value = true := by
    simp only [isNickname, Bool.and_eq_true, decide_eq_true_eq, List.all_eq_true]
    exact ⟨⟨shape.least, shape.most⟩, shape.letters⟩
  rw [nickname, if_pos accepted]

theorem isOctet_toDigits {octet : Nat} (small : octet ≤ 255) :
    isOctet (Nat.toDigits 10 octet) = true := by
  have table : ∀ octet < 256, isOctet (Nat.toDigits 10 octet) = true := by decide +kernel
  exact table octet (Nat.lt_succ_of_le small)

theorem not_mem_toDigits {c : Char} (noDigit : c.isDigit = false) (n : Nat) :
    c ∉ Nat.toDigits 10 n :=
  Numeral.not_mem_of_isUnsigned (Numeral.isUnsigned_toDigits n) noDigit

theorem address_of_isDottedQuad (shape : IsDottedQuad value) : address line value = .ok value := by
  obtain ⟨octets, four, small, rfl⟩ := shape
  have nonempty : octets.map (Nat.toDigits 10) ≠ [] := by
    intro none
    rw [List.map_eq_nil_iff.mp none] at four
    cases four
  have cut : Text.pieces '.' (Text.joinWith ['.'] (octets.map (Nat.toDigits 10))) =
      octets.map (Nat.toDigits 10) :=
    Text.pieces_joinWith nonempty (List.forall_mem_map.mpr fun octet _ => not_mem_toDigits rfl octet)
  have accepted : isAddress (Text.joinWith ['.'] (octets.map (Nat.toDigits 10))) = true := by
    simp only [isAddress, cut, Bool.and_eq_true, beq_iff_eq, List.length_map, List.all_eq_true,
      List.forall_mem_map]
    exact ⟨four, fun octet member => isOctet_toDigits (small octet member)⟩
  rw [address, if_pos accepted]

theorem Bounds.refusal?_of_admits {bounds : Bounds} (admitted : bounds.Admits n) :
    bounds.refusal? n = .none := by
  obtain ⟨minimum, maximum⟩ := bounds
  have notAbove : refusal?.above? n maximum = .none := by
    cases maximum with
    | none => rfl
    | some most => exact if_neg (Int.not_lt.mpr (admitted.most most rfl))
  cases minimum with
  | none => exact notAbove
  | some least => exact (if_neg (Int.not_lt.mpr (admitted.least least rfl))).trans notAbove

theorem integer_written {bounds : Bounds} (short : Numeral.IsShort n)
    (admitted : bounds.Admits n) : integer bounds line (Numeral.written n) = .ok n := by
  rw [integer, if_pos (Numeral.isSigned_written n), readInteger_written short]
  simp only [Bounds.refusal?_of_admits admitted]

theorem portNumber_written (least : 0 ≤ n) (most : n ≤ 65535) :
    portNumber line (Numeral.written n) = .ok n := by
  have short : Numeral.IsShort n := by
    have digits : (Nat.toDigits 10 n.natAbs).length ≤ 5 :=
      Nat.toDigits_length 10 n.natAbs 5 (by decide) (by omega)
    exact Nat.le_trans digits (by decide)
  exact integer_written short (Bounds.between_admits least most)

theorem Timestamp.written_epochMillis {moment : Calendar.Moment} (found : moment.Exists) :
    written moment.epochMillis = (moment.dateText, moment.timeText) := by
  have result : read [] moment.dateText moment.timeText = .ok moment.epochMillis :=
    read_eq_ok_iff.mpr ⟨moment, found, rfl, rfl, rfl⟩
  exact (read_eq_ok_iff_written.mp result).2.2.2.symm

/-! ## Texts without spaces -/

theorem Numeral.not_mem_padded {c : Char} (noDigit : c.isDigit = false) (width n : Nat) :
    c ∉ padded width n := by
  induction width generalizing n with
  | zero => exact List.not_mem_nil
  | succ width induction =>
      rw [padded, List.mem_append, List.mem_singleton, not_or]
      refine ⟨induction (n / 10), ?_⟩
      rintro rfl
      rw [Nat.isDigit_digitChar, decide_eq_false_iff_not] at noDigit
      exact noDigit (Nat.mod_lt n (by decide))

namespace Calendar.Moment

theorem not_mem_dateText (moment : Moment) : ' ' ∉ moment.dateText := by
  simp [dateText, Numeral.not_mem_padded]

theorem not_mem_timeText (moment : Moment) : ' ' ∉ moment.timeText := by
  simp [timeText, Numeral.not_mem_padded]

end Calendar.Moment

/-! ## Lines of entries -/

namespace StatusEntry

variable {entry : StatusEntry}

/-- The arguments that are written for an entry. -/
def arguments (entry : StatusEntry) : List Text :=
  let (date, time) := Timestamp.written entry.publishedMillis
  entry.nickname :: entry.identity :: (entry.descriptor.toList ++
    [date, time, entry.address, Numeral.written entry.orPort, Numeral.written entry.dirPort])

/-- The line that is written for an entry. -/
def text (entry : StatusEntry) : Text := Text.joinWith [' '] ("r".toList :: entry.arguments)

/-- The texts of an entry can be told from the spaces between them. -/
structure HasNoSpaces (entry : StatusEntry) : Prop where
  nickname : ' ' ∉ entry.nickname
  identity : ' ' ∉ entry.identity
  descriptor : ∀ digest ∈ entry.descriptor, ' ' ∉ digest
  address : ' ' ∉ entry.address

/-- A nickname, a moment that exists, an address and ports, and any texts without spaces for the
identity and the digest. -/
structure IsWritable (entry : StatusEntry) : Prop where
  nickname : IsNickname entry.nickname
  identity : ' ' ∉ entry.identity
  descriptor : ∀ digest ∈ entry.descriptor, ' ' ∉ digest
  published : ∃ moment : Calendar.Moment, moment.Exists ∧
    entry.publishedMillis = moment.epochMillis
  address : IsDottedQuad entry.address
  orPort : 0 ≤ entry.orPort ∧ entry.orPort ≤ 65535
  dirPort : 0 ≤ entry.dirPort ∧ entry.dirPort ≤ 65535

theorem IsWritable.hasNoSpaces (writable : entry.IsWritable) : entry.HasNoSpaces := by
  refine ⟨?_, writable.identity, writable.descriptor, ?_⟩
  · intro member
    exact absurd (writable.nickname.letters ' ' member) (by decide)
  · obtain ⟨octets, _, _, same⟩ := writable.address
    rw [same]
    intro member
    rcases Text.mem_joinWith member with equal | ⟨text, inside, found⟩
    · exact absurd equal (by decide)
    · obtain ⟨octet, _, rfl⟩ := List.mem_map.mp inside
      exact not_mem_toDigits rfl octet found

theorem HasNoSpaces.not_mem_arguments (apart : entry.HasNoSpaces) :
    ∀ argument ∈ entry.arguments, ' ' ∉ argument := by
  have port : ∀ n, ' ' ∉ Numeral.written n := Numeral.not_mem_written rfl (by decide)
  simp only [arguments, Timestamp.written, List.forall_mem_cons, List.forall_mem_append,
    Option.mem_toList]
  exact ⟨apart.nickname, apart.identity, apart.descriptor, Calendar.Moment.not_mem_dateText _,
    Calendar.Moment.not_mem_timeText _, apart.address, port _, port _, by simp⟩

theorem getLast?_arguments (entry : StatusEntry) : entry.arguments.getLast? ≠ some [] := by
  have nonempty : Numeral.written entry.dirPort ≠ [] := by
    intro empty
    have signed := Numeral.isSigned_written entry.dirPort
    rw [empty] at signed
    cases signed
  -- The last argument is a port, so no empty one at the end of the line is dropped.
  have last : entry.arguments.getLast? = some (Numeral.written entry.dirPort) := by
    simp [arguments, List.getLast?_cons, List.getLast?_append]
  rw [last]
  simpa using nonempty

theorem HasNoSpaces.tokenize_text (apart : entry.HasNoSpaces) :
    tokenize entry.text = .item (.token ⟨"r".toList, entry.arguments, entry.text, false⟩) := by
  have plain : IsPlainKeyword "r".toList :=
    ⟨by decide, by decide, by decide, by decide, by decide⟩
  have whole : entry.text = "r".toList ++ ' ' :: Text.joinWith [' '] entry.arguments := rfl
  have cut : fields (Text.joinWith [' '] entry.arguments) = entry.arguments :=
    Text.dropEmptyEnd_pieces_eq_iff.mpr
      ⟨apart.not_mem_arguments, entry.getLast?_arguments, 0, by simp⟩
  rw [whole, plain.tokenize_cons, cut]

end StatusEntry

namespace NetworkStatus

variable {entry other : StatusEntry} {token : Token}

/-- In either shape of the line each argument is read as what its place says. -/
theorem statusEntry_shape (keyword line : Text) (deprecated : Bool)
    (name identity : Text) (digest : Option Text) (date time place first second : Text) :
    statusEntry ⟨keyword, name :: identity ::
        (digest.toList ++ [date, time, place, first, second]), line, deprecated⟩ = (do
      let nickname ← nickname line name
      let published ← Timestamp.read line date time
      let address ← address line place
      let orPort ← portNumber line first
      let dirPort ← portNumber line second
      return ⟨nickname, identity, digest, published, address, orPort, dirPort⟩) := by
  cases digest <;> rfl

theorem statusEntry_arguments (writable : entry.IsWritable) (keyword line : Text)
    (deprecated : Bool) :
    statusEntry ⟨keyword, entry.arguments, line, deprecated⟩ = .ok entry := by
  obtain ⟨moment, found, published⟩ := writable.published
  have momentRead : Timestamp.read line moment.dateText moment.timeText = .ok moment.epochMillis :=
    Timestamp.read_eq_ok_iff.mpr ⟨moment, found, rfl, rfl, rfl⟩
  rw [StatusEntry.arguments, published, Timestamp.written_epochMillis found]
  dsimp only
  rw [statusEntry_shape, nickname_of_isNickname writable.nickname, momentRead,
    address_of_isDottedQuad writable.address,
    portNumber_written writable.orPort.1 writable.orPort.2,
    portNumber_written writable.dirPort.1 writable.dirPort.2, ← published]
  rfl

theorem descriptor_of_arguments {keyword line : Text} {deprecated : Bool}
    (result : statusEntry ⟨keyword, entry.arguments, line, deprecated⟩ = .ok other) :
    other.descriptor = entry.descriptor := by
  rw [StatusEntry.arguments] at result
  dsimp only at result
  rw [statusEntry_shape] at result
  simp only [bind_eq_ok_iff] at result
  obtain ⟨_, _, _, _, _, _, _, _, _, _, same⟩ := result
  cases same
  rfl

theorem statusEntry_of_length (seven : token.arguments.length ≠ 7)
    (eight : token.arguments.length ≠ 8) :
    statusEntry token = .error (.violation
      (.argumentCount token.keyword token.line false 7 token.arguments.length)) := by
  simp only [statusEntry, eight, Token.expectExactly, seven]
  rfl

end NetworkStatus

/-- Entries are read back from the lines that are written for them.  An entry with a digest is
never read from the line of one without, nor the other way round, even if nothing else of the
line is as it should be; and a line with fewer than seven or more than eight arguments is an
illegal one. -/
theorem statusEntry_isInverse :
    (∀ entry : StatusEntry, entry.IsWritable →
      ∃ token, tokenize entry.text = .item (.token token) ∧ token.keyword = "r".toList ∧
        NetworkStatus.statusEntry token = .ok entry ∧
          NetworkStatus.entry.updates token = .ok [("entries", .entry entry)]) ∧
    (∀ entry : StatusEntry, entry.HasNoSpaces → ∀ token other,
      tokenize entry.text = .item (.token token) →
        NetworkStatus.statusEntry token = .ok other → other.descriptor = entry.descriptor) ∧
    ∀ line token, tokenize line = .item (.token token) → token.keyword = "r".toList →
      token.arguments.length ≠ 7 → token.arguments.length ≠ 8 →
        ∃ violation : Violation,
          NetworkStatus.entry.updates token = .error (.violation violation) ∧
            violation.cause = "illegal-line" ∧ violation.keyword? = some "r".toList ∧
              violation.line? = some line := by
  refine ⟨?_, ?_, ?_⟩
  · intro entry writable
    have read := NetworkStatus.statusEntry_arguments writable "r".toList entry.text false
    refine ⟨_, writable.hasNoSpaces.tokenize_text, rfl, read, ?_⟩
    simp only [NetworkStatus.entry, Decoder.updates, Decoder.ofToken, Decoder.values_ofFields, read]
    rfl
  · intro entry apart token other item result
    rw [apart.tokenize_text] at item
    cases item
    exact NetworkStatus.descriptor_of_arguments result
  · intro line token item keyword seven eight
    have refused := NetworkStatus.statusEntry_of_length seven eight
    have same : token.line = line := (infix_of_tokenize item).1
    rw [keyword, same] at refused
    refine ⟨.argumentCount "r".toList line false 7 token.arguments.length, ?_, rfl, rfl, rfl⟩
    simp only [NetworkStatus.entry, Decoder.updates, Decoder.ofToken, Decoder.values_ofFields,
      refused]
    rfl

/-- A router with and without a digest, and the beginning of its line. -/
theorem statusEntry_isInverse_leapDay :
    let full : StatusEntry := ⟨"Relay1".toList, "AbC+".toList, some "dEf/".toList, 1330559999000,
      "10.0.0.255".toList, 9001, 0⟩
    let short := "r Relay1 AbC+ 2012-02-29 23:59:59 10.0.0.255 9001 0".toList
    let cut := "r Relay1 AbC+ 2012-02-29 23:59:59".toList
    full.text = "r Relay1 AbC+ dEf/ 2012-02-29 23:59:59 10.0.0.255 9001 0".toList ∧
      (∃ token, tokenize full.text = .item (.token token) ∧
        NetworkStatus.statusEntry token = .ok full) ∧
      (∀ token other, tokenize short = .item (.token token) →
        NetworkStatus.statusEntry token = .ok other → other.descriptor = none) ∧
      ∃ token violation, tokenize cut = .item (.token token) ∧
        NetworkStatus.entry.updates token = .error (.violation violation) ∧
          violation.cause = "illegal-line" := by
  intro full short cut
  obtain ⟨inverse, apart, refused⟩ := statusEntry_isInverse
  have found : (⟨2012, 2, 29, 23, 59, 59⟩ : Calendar.Moment).Exists := by decide
  have millis : 1330559999000 = (⟨2012, 2, 29, 23, 59, 59⟩ : Calendar.Moment).epochMillis := by
    decide
  have written : Timestamp.written 1330559999000 = ("2012-02-29".toList, "23:59:59".toList) := by
    rw [millis, Timestamp.written_epochMillis found]
    rfl
  have name : IsNickname full.nickname :=
    ⟨by decide, by decide, List.all_eq_true.mp (by decide)⟩
  have address : IsDottedQuad full.address := ⟨[10, 0, 0, 255], rfl, by decide, rfl⟩
  have writable : full.IsWritable :=
    ⟨name, by decide, by decide, ⟨_, found, millis⟩, address, by decide, by decide⟩
  refine ⟨?_, ?_, ?_, ?_⟩
  · rw [StatusEntry.text, StatusEntry.arguments, written]
    rfl
  · obtain ⟨token, tokenized, _, read, _⟩ := inverse full writable
    exact ⟨token, tokenized, read⟩
  · have same : ({ full with descriptor := none } : StatusEntry).text = short := by
      rw [StatusEntry.text, StatusEntry.arguments, written]
      rfl
    rw [← same]
    exact apart _ ⟨by decide, by decide, by decide, by decide⟩
  · have tokenized : tokenize cut = .item (.token
        ⟨"r".toList, ["Relay1", "AbC+", "2012-02-29", "23:59:59"].map String.toList, cut, false⟩) :=
      by decide
    obtain ⟨violation, failed, cause, _⟩ := refused cut _ tokenized rfl (by decide) (by decide)
    exact ⟨_, violation, tokenized, failed, cause⟩

end RelayDescriptor
