import RelayDescriptor.Proofs.Reading.Runs
import RelayDescriptor.Proofs.Reading.Steps

/-!
# Numerals with too many digits

Reading values is refused for many reasons, but it is interrupted for only one: a
numeral with more digits than are read.  Each reader is followed down to the texts
that it reads, and then each decoder to the arguments of its line, one of which
holds a run of as many digits as the interruption reports.
-/

namespace RelayDescriptor

variable {α β : Type} {sources others arguments : List Text} {text : Text}
  {count : Nat}

/-- An interruption reports a numeral with too many digits that stands in one of the sources. -/
def OnlyOverlong (sources : List Text) (result : Except Fault α) : Prop :=
  ∀ interruption, result = .error (.interrupted interruption) →
    ∃ count, interruption = .digitLimit count ∧ Numeral.digitLimit < count ∧
      ∃ source ∈ sources, HasRun Char.isDigit count source

namespace OnlyOverlong

theorem ok (a : α) : OnlyOverlong sources (.ok a : Except Fault α) := by
  intro interruption same
  cases same

theorem rejected (rejection : Rejection) :
    OnlyOverlong sources (.error (.rejected rejection) : Except Fault α) := by
  intro interruption same
  cases same

theorem value (line argument : Text) (expected : String) :
    OnlyOverlong sources (.error (.value line argument expected) : Except Fault α) :=
  rejected _

theorem line (line : Text) (expected : String) :
    OnlyOverlong sources (.error (.line line expected) : Except Fault α) :=
  rejected _

theorem violation (violation : Violation) :
    OnlyOverlong sources (.error (.violation violation) : Except Fault α) :=
  rejected _

theorem bind {first : Except Fault α} {next : α → Except Fault β}
    (before : OnlyOverlong sources first)
    (after : ∀ a, first = .ok a → OnlyOverlong sources (next a)) :
    OnlyOverlong sources (first >>= next) := by
  intro interruption same
  rcases bind_eq_error_iff.mp same with failed | ⟨a, result, failed⟩
  · exact before interruption failed
  · exact after a result interruption failed

theorem map {result : Except Fault α} (only : OnlyOverlong sources result) (f : α → β) :
    OnlyOverlong sources (result.map f) := by
  intro interruption same
  exact only interruption (map_eq_error_iff.mp same)

theorem mapM {f : α → Except Fault β} {list : List α}
    (each : ∀ a ∈ list, OnlyOverlong sources (f a)) : OnlyOverlong sources (list.mapM f) := by
  induction list with
  | nil => exact ok []
  | cons a list induction =>
      rw [List.mapM_cons]
      apply bind (each a List.mem_cons_self)
      intro b _
      apply bind (induction fun later member => each later (List.mem_cons_of_mem a member))
      intro bs _
      exact ok (b :: bs)

theorem forM {f : α → Except Fault PUnit} {list : List α}
    (each : ∀ a ∈ list, OnlyOverlong sources (f a)) : OnlyOverlong sources (list.forM f) := by
  induction list with
  | nil => exact ok PUnit.unit
  | cons a list induction =>
      apply bind (each a List.mem_cons_self)
      intro _ _
      exact induction fun later member => each later (List.mem_cons_of_mem a member)

theorem mono {result : Except Fault α} (only : OnlyOverlong sources result)
    (covered : ∀ source ∈ sources, ∀ count, Numeral.digitLimit < count →
      HasRun Char.isDigit count source → ∃ other ∈ others, HasRun Char.isDigit count other) :
    OnlyOverlong others result := by
  intro interruption same
  obtain ⟨count, reported, above, source, member, run⟩ := only interruption same
  exact ⟨count, reported, above, covered source member count above run⟩

theorem of_within {result : Except Fault α} {source : Text} (only : OnlyOverlong [text] result)
    (member : source ∈ sources) (within : text <:+: source) : OnlyOverlong sources result := by
  apply only.mono
  intro other inside count _ run
  rw [List.mem_singleton] at inside
  exact ⟨source, member, (inside ▸ run).of_within within⟩

theorem of_mem {result : Except Fault α} (only : OnlyOverlong [text] result)
    (member : text ∈ sources) : OnlyOverlong sources result :=
  only.of_within member List.infix_rfl

/-- An argument that is absent reads as the empty text, which holds no digits. -/
theorem argument {result : Except Fault α} {index : Nat}
    (only : OnlyOverlong [arguments[index]?.getD []] result) : OnlyOverlong arguments result := by
  apply only.mono
  intro source member count above run
  rw [List.mem_singleton] at member
  cases found : arguments[index]? with
  | some argument =>
      rw [found] at member
      obtain rfl : source = argument := member
      exact ⟨source, List.mem_of_getElem? found, run⟩
  | none =>
      rw [found] at member
      have short := (member ▸ run).length_le
      exact absurd above (by simp at short; omega)

end OnlyOverlong

/-! ## Numerals -/

namespace Numeral

theorem not_mem_of_isUnsigned (unsigned : isUnsigned text = true) {c : Char}
    (other : c.isDigit = false) : c ∉ text := by
  intro member
  rw [isUnsigned, Bool.and_eq_true] at unsigned
  rw [List.all_eq_true.mp unsigned.2 c member] at other
  cases other

theorem isAscii_of_isUnsigned (unsigned : isUnsigned text = true) :
    ∀ c ∈ text, Ascii.isAscii c = true := by
  intro c member
  rw [isUnsigned, Bool.and_eq_true] at unsigned
  have digit := List.all_eq_true.mp unsigned.2 c member
  simp only [Char.isDigit, Bool.and_eq_true, decide_eq_true_eq] at digit
  exact decide_eq_true (Nat.lt_of_le_of_lt (UInt32.le_iff_toNat_le.mp digit.2) (by decide))

theorem ne_minus_of_isUnsigned (unsigned : isUnsigned text = true) (digits : Text) :
    text ≠ '-' :: digits := by
  rintro rfl
  have noMinus : '-' ∉ '-' :: digits := not_mem_of_isUnsigned unsigned rfl
  exact noMinus List.mem_cons_self

theorem isSigned_of_isUnsigned (unsigned : isUnsigned text = true) : isSigned text = true := by
  rw [isSigned]
  · exact unsigned
  · exact ne_minus_of_isUnsigned unsigned

theorem readInt_of_isUnsigned (unsigned : isUnsigned text = true) :
    readInt text = (readNat text).map fun n => (n : Int) := by
  rw [readInt]
  exact ne_minus_of_isUnsigned unsigned

theorem hasRun_of_isUnsigned (unsigned : isUnsigned text = true) :
    HasRun Char.isDigit text.length text := by
  rw [isUnsigned, Bool.and_eq_true] at unsigned
  exact .whole (List.all_eq_true.mp unsigned.2)

theorem readNat_eq_error (result : readNat text = .error count) :
    digitLimit < count ∧ count = text.length := by
  rw [readNat] at result
  split at result
  next => cases result
  next above =>
    cases result
    exact ⟨Nat.lt_of_not_le above, rfl⟩

/-- A numeral that is not read has a run of as many digits as are reported. -/
theorem hasRun_of_readInt (signed : isSigned text = true)
    (result : readInt text = .error count) :
    digitLimit < count ∧ HasRun Char.isDigit count text := by
  have unsignedCase : ∀ {digits : Text} {f : Int → Int}, isUnsigned digits = true →
      Except.map f (do let n ← readNat digits; pure (n : Int)) = .error count →
        digitLimit < count ∧ HasRun Char.isDigit count digits := by
    intro digits f unsigned result
    cases found : readNat digits with
    | ok n =>
        rw [found] at result
        cases result
    | error size =>
        rw [found] at result
        cases result
        obtain ⟨above, rfl⟩ := readNat_eq_error found
        exact ⟨above, hasRun_of_isUnsigned unsigned⟩
  rw [isSigned.eq_def] at signed
  rw [readInt.eq_def] at result
  split at result
  next digits =>
    obtain ⟨above, run⟩ := unsignedCase signed result
    exact ⟨above, run.of_within (List.suffix_cons '-' digits).isInfix⟩
  next digits notNegative =>
    split at signed
    next negative => exact absurd rfl (notNegative _)
    next => exact unsignedCase signed result

end Numeral

/-- Too many digits are never read. -/
theorem readInteger_of_isUnsigned (unsigned : Numeral.isUnsigned text = true)
    (many : Numeral.digitLimit < text.length) :
    readInteger text = .error (.interrupted (.digitLimit text.length)) := by
  rw [readInteger, Numeral.readInt_of_isUnsigned unsigned, Numeral.readNat,
    if_neg (Nat.not_le_of_lt many)]
  rfl

theorem readInteger_onlyOverlong (signed : Numeral.isSigned text = true) :
    OnlyOverlong [text] (readInteger text) := by
  intro interruption same
  rw [readInteger] at same
  cases result : Numeral.readInt text with
  | ok n =>
      rw [result] at same
      cases same
  | error count =>
      rw [result] at same
      cases same
      obtain ⟨above, run⟩ := Numeral.hasRun_of_readInt signed result
      exact ⟨count, rfl, above, text, List.mem_cons_self, run⟩

/-! ## Readers -/

theorem integer_onlyOverlong (bounds : Bounds) (line value : Text) :
    OnlyOverlong [value] (integer bounds line value) := by
  rw [integer]
  split
  next signed =>
    have read := readInteger_onlyOverlong signed
    split
    next fault found =>
      rw [found] at read
      exact read
    next n found =>
      split
      · exact .value line value _
      · exact .ok n
  next => exact .value line value _

theorem hexDigest_onlyOverlong (length : Int) (line value : Text) :
    OnlyOverlong sources (hexDigest length line value) := by
  rw [hexDigest]
  split
  · exact .ok _
  · exact .value line value _

theorem nickname_onlyOverlong (line value : Text) :
    OnlyOverlong sources (nickname line value) := by
  rw [nickname]
  split
  · exact .ok value
  · exact .value line value _

theorem address_onlyOverlong (line value : Text) :
    OnlyOverlong sources (address line value) := by
  rw [address]
  split
  · exact .ok value
  · exact .value line value _

theorem unsigned_onlyOverlong {value : Text} (line : Text) (expected : String) :
    OnlyOverlong [value]
      (if Numeral.isUnsigned value then readInteger value
        else .error (.value line value expected)) := by
  split
  next unsigned => exact readInteger_onlyOverlong (Numeral.isSigned_of_isUnsigned unsigned)
  next => exact .value line value _

theorem argumentAt_onlyOverlong (line : Text) (arguments : List Text) (index : Nat)
    (expected : String) : OnlyOverlong sources (argumentAt line arguments index expected) := by
  rw [argumentAt]
  split
  next argument found => exact .ok argument
  next => exact .line line expected

theorem timestamp_onlyOverlong (line : Text) (arguments : List Text) (dateIndex timeIndex : Nat) :
    OnlyOverlong sources (timestamp line arguments dateIndex timeIndex) := by
  rw [timestamp]
  apply OnlyOverlong.bind (argumentAt_onlyOverlong line arguments dateIndex _)
  intro date _
  apply OnlyOverlong.bind (argumentAt_onlyOverlong line arguments timeIndex _)
  intro time _
  rw [Timestamp.read]
  split
  · exact .value line date _
  · split
    · exact .value line time _
    · dsimp only
      split
      · exact .ok _
      · exact .value line _ _

theorem exists_of_argumentAt {line argument : Text} {index : Nat} {expected : String}
    (found : argumentAt line arguments index expected = .ok argument) : argument ∈ arguments := by
  rw [argumentAt] at found
  split at found
  next other same =>
    cases found
    exact List.mem_of_getElem? same
  next => cases found

theorem interval_onlyOverlong (line : Text) (arguments : List Text) (index : Nat) :
    OnlyOverlong arguments (interval line arguments index) := by
  rw [interval]
  apply OnlyOverlong.bind (argumentAt_onlyOverlong line arguments index _)
  intro opening found
  apply OnlyOverlong.bind (argumentAt_onlyOverlong line arguments (index + 1) _)
  intro closing _
  split
  next d digits =>
    split
    next =>
      have within : d :: digits <:+: '(' :: d :: digits := (List.suffix_cons '(' _).isInfix
      exact (unsigned_onlyOverlong line _).of_within (exists_of_argumentAt found) within
    next => exact .value line _ _
  next => exact .value line _ _

theorem statsInterval_onlyOverlong (line : Text) (arguments : List Text) :
    OnlyOverlong arguments (statsInterval line arguments) := by
  rw [statsInterval]
  split
  next => exact .line line _
  next =>
    apply OnlyOverlong.bind (timestamp_onlyOverlong line arguments 0 1)
    intro endMillis _
    apply OnlyOverlong.bind (interval_onlyOverlong line arguments 2)
    intro lengthSeconds _
    exact .ok _

theorem bandwidthHistory_onlyOverlong (line : Text) (arguments : List Text) :
    OnlyOverlong arguments (bandwidthHistory line arguments) := by
  rw [bandwidthHistory]
  split
  next => exact .line line _
  next =>
    apply OnlyOverlong.bind (timestamp_onlyOverlong line arguments 0 1)
    intro endMillis _
    apply OnlyOverlong.bind (interval_onlyOverlong line arguments 2)
    intro intervalSeconds _
    apply OnlyOverlong.bind
    · apply OnlyOverlong.argument
      apply OnlyOverlong.mapM
      intro element member
      exact (unsigned_onlyOverlong line _).of_within List.mem_cons_self
        (infix_of_mem_commaFields member)
    · intro numbers _
      dsimp only
      split
      · exact .line line _
      · exact .ok _

theorem listArgument_onlyOverlong (line : Text) (arguments : List Text) (index : Nat)
    (expected : String) : OnlyOverlong sources (listArgument line arguments index expected) := by
  have join : ∀ (joined : Text) (pieces : List Text),
      OnlyOverlong sources (joinListFrom line expected joined pieces) := by
    intro joined pieces
    induction pieces generalizing joined with
    | nil => exact .ok joined
    | cons piece pieces induction =>
        rw [joinListFrom]
        split
        · exact induction (joined ++ piece)
        · exact .value line piece expected
  rw [listArgument]
  split
  next => exact .ok []
  next first pieces split => exact join first pieces

theorem hasRun_of_listArgument {line list : Text} {index : Nat} {expected : String}
    (result : listArgument line arguments index expected = .ok list)
    (positive : 0 < count) (run : HasRun Char.isDigit count list) :
    ∃ argument ∈ arguments, HasRun Char.isDigit count argument := by
  rw [listArgument] at result
  split at result
  next =>
    cases result
    exact absurd run.length_le (Nat.not_le.mpr positive)
  next first pieces split =>
    obtain ⟨argument, member, run⟩ := hasRun_of_joinListFrom result run
    rw [← split] at member
    exact ⟨argument, List.mem_of_mem_drop member, run⟩

theorem keyCount_onlyOverlong (keyLength : Int) (line : Text) (expected : String)
    (element : Text) : OnlyOverlong [element] (keyCount keyLength line expected element) := by
  rw [keyCount]
  split
  next => exact .value line element expected
  next key number cut =>
    split
    next => exact .value line element expected
    next accepted =>
      have signed : Numeral.isSigned number = true := by
        cases signed : Numeral.isSigned number with
        | true => rfl
        | false => exact absurd (by simp [signed]) accepted
      have behind : number <:+: element := by
        rw [Text.cutFirst?_eq_some cut, ← List.singleton_append, ← List.append_assoc]
        exact (List.suffix_append _ number).isInfix
      exact ((readInteger_onlyOverlong signed).of_within List.mem_cons_self behind).map _

theorem keyCounts_onlyOverlong (keyLength : Int) (line : Text) (expected : String)
    (elements : List Text) :
    OnlyOverlong elements (keyCounts keyLength line expected elements) := by
  apply OnlyOverlong.map
  apply OnlyOverlong.mapM
  intro element member
  exact (keyCount_onlyOverlong keyLength line expected element).of_mem member

theorem keyValueList_onlyOverlong (line : Text) (arguments : List Text) (index : Nat)
    (keyLength : Int) :
    OnlyOverlong arguments (keyValueList line arguments index keyLength) := by
  rw [keyValueList]
  apply OnlyOverlong.bind (listArgument_onlyOverlong line arguments index _)
  intro list result
  apply OnlyOverlong.mono (keyCounts_onlyOverlong keyLength line _ (commaFields list))
  intro element member count above run
  have positive : 0 < count := Nat.zero_lt_of_lt above
  exact hasRun_of_listArgument result positive (run.of_within (infix_of_mem_commaFields member))

theorem spacedKeyValues_onlyOverlong (line : Text) (arguments : List Text) (index : Nat) :
    OnlyOverlong arguments (spacedKeyValues line arguments index) := by
  apply OnlyOverlong.mono (keyCounts_onlyOverlong 0 line _ (arguments.drop index))
  intro argument member count _ run
  exact ⟨argument, List.mem_of_mem_drop member, run⟩

theorem elementsAt_onlyOverlong {read : Text → Except Fault α} (expected : String) (line : Text)
    (arguments : List Text) (index : Nat)
    (each : ∀ element, OnlyOverlong [element] (read element)) :
    OnlyOverlong arguments (elementsAt read expected line arguments index) := by
  rw [elementsAt]
  split
  next => exact .ok []
  next list split =>
    have member : list ∈ arguments :=
      List.mem_of_mem_drop (split ▸ List.mem_cons_self : list ∈ arguments.drop index)
    apply OnlyOverlong.mapM
    intro element inside
    exact (each element).of_within member (infix_of_mem_commaFields inside)
  next => exact .value line _ expected

theorem integerList_onlyOverlong (line : Text) (arguments : List Text) (index : Nat) :
    OnlyOverlong arguments (integerList line arguments index) := by
  apply elementsAt_onlyOverlong
  intro element
  split
  next signed => exact readInteger_onlyOverlong signed
  next => exact .value line element _

theorem decimalList_onlyOverlong (line : Text) (arguments : List Text) (index : Nat) :
    OnlyOverlong arguments (decimalList line arguments index) := by
  apply elementsAt_onlyOverlong
  intro element
  split
  next decimal found => exact .ok _
  next => exact .value line element _

theorem share_onlyOverlong (line : Text) (arguments : List Text) :
    OnlyOverlong sources (share line arguments) := by
  rw [share.eq_def]
  dsimp only
  split
  next value =>
    split
    · split
      · exact .value line value _
      · exact .ok _
    · exact .value line value _
  next => exact .line line _

end RelayDescriptor
