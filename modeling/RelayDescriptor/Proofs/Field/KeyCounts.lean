import RelayDescriptor.Field.Lists
import RelayDescriptor.Proofs.Line.Keywords
import RelayDescriptor.Proofs.OrderedMap
import RelayDescriptor.Proofs.Reading.Overlong
import RelayDescriptor.Proofs.Text.Separated

/-!
# Written lists of keys with counts

A list of keys with counts is read from however many arguments its spaces cut it into.  An
argument is joined to what comes before it where that ends with a comma; so spaces after
commas vanish again, and with them the empty arguments between two spaces.
-/

namespace RelayDescriptor

/-! ## Signed numerals -/

namespace Numeral

/-- The decimal form of a number. -/
def written : Int → Text
  | .ofNat n => Nat.toDigits 10 n
  | .negSucc n => '-' :: Nat.toDigits 10 (n + 1)

theorem value_eq_ofDigitChars (digits : Text) : value digits = Nat.ofDigitChars 10 digits 0 := by
  have step : (fun (n : Nat) (c : Char) => n * 10 + digitValue c) =
      fun n c => 10 * n + (c.toNat - '0'.toNat) := by
    funext n c
    rw [Nat.mul_comm]
    rfl
  rw [value, valueFrom, step]
  rfl

theorem value_toDigits (n : Nat) : value (Nat.toDigits 10 n) = n := by
  rw [value_eq_ofDigitChars]
  exact Nat.ofDigitChars_toDigits (by decide) (by decide)

theorem isUnsigned_toDigits (n : Nat) : isUnsigned (Nat.toDigits 10 n) = true := by
  rw [isUnsigned, Bool.and_eq_true, Bool.not_eq_true', List.isEmpty_eq_false_iff,
    List.all_eq_true]
  exact ⟨Nat.toDigits_ne_nil, fun c => Nat.isDigit_of_mem_toDigits (by decide) (by decide)⟩

theorem isSigned_written (n : Int) : isSigned (written n) = true := by
  cases n with
  | ofNat n => exact isSigned_of_isUnsigned (isUnsigned_toDigits n)
  | negSucc n => exact isUnsigned_toDigits (n + 1)

theorem not_mem_written {c : Char} (noDigit : c.isDigit = false) (noMinus : c ≠ '-') (n : Int) :
    c ∉ written n := by
  cases n with
  | ofNat n => exact not_mem_of_isUnsigned (isUnsigned_toDigits n) noDigit
  | negSucc n =>
      rw [written, List.mem_cons, not_or]
      exact ⟨noMinus, not_mem_of_isUnsigned (isUnsigned_toDigits (n + 1)) noDigit⟩

/-- A number with no more digits than are read. -/
def IsShort (n : Int) : Prop := (Nat.toDigits 10 n.natAbs).length ≤ digitLimit

instance (n : Int) : Decidable (IsShort n) := inferInstanceAs (Decidable (_ ≤ _))

theorem readNat_toDigits {n : Nat} (short : (Nat.toDigits 10 n).length ≤ digitLimit) :
    readNat (Nat.toDigits 10 n) = .ok n := by
  rw [readNat, if_pos short, value_toDigits]

end Numeral

theorem readInteger_written {n : Int} (short : Numeral.IsShort n) :
    readInteger (Numeral.written n) = .ok n := by
  cases n with
  | ofNat n =>
      rw [readInteger, Numeral.written,
        Numeral.readInt_of_isUnsigned (Numeral.isUnsigned_toDigits n),
        Numeral.readNat_toDigits (n := n) short]
      rfl
  | negSucc n =>
      rw [readInteger, Numeral.written, Numeral.readInt,
        Numeral.readNat_toDigits (n := n + 1) short]
      rfl

/-! ## Keys with counts -/

/-- A key with its count behind it. -/
def keyCountText (entry : Text × Int) : Text := entry.1 ++ '=' :: Numeral.written entry.2

/-- Different keys that can be told from what separates them, with counts that can be read. -/
structure IsWritable (entries : OrderedMap Text Int) : Prop where
  distinct : (OrderedMap.keys entries).Nodup
  nonempty : ∀ entry ∈ entries, entry.1 ≠ []
  apart : ∀ entry ∈ entries, ',' ∉ entry.1 ∧ '=' ∉ entry.1 ∧ ' ' ∉ entry.1
  short : ∀ entry ∈ entries, Numeral.IsShort entry.2

variable {entry : Text × Int} {entries : OrderedMap Text Int} {keyLength : Int}
  {line text joined result : Text} {expected : String}

theorem keyCountText_ne_nil (entry : Text × Int) : keyCountText entry ≠ [] := by
  simp [keyCountText]

theorem not_mem_keyCountText {c : Char} (absent : c ∉ entry.1) (noDigit : c.isDigit = false)
    (noMinus : c ≠ '-') (noEquals : c ≠ '=') : c ∉ keyCountText entry := by
  rw [keyCountText, List.mem_append, List.mem_cons, not_or, not_or]
  exact ⟨absent, noEquals, Numeral.not_mem_written noDigit noMinus entry.2⟩

theorem Text.cutFirst?_append_cons {separator : Char} {before : Text}
    (absent : separator ∉ before) (after : Text) :
    cutFirst? separator (before ++ separator :: after) = some (before, after) := by
  induction before with
  | nil => simp [cutFirst?]
  | cons c before induction =>
      rw [List.mem_cons, not_or] at absent
      rw [List.cons_append, cutFirst?, if_neg (Ne.symm absent.1), induction absent.2]
      rfl

theorem keyCount_keyCountText (nonempty : entry.1 ≠ []) (noEquals : '=' ∉ entry.1)
    (short : Numeral.IsShort entry.2)
    (long : 0 < keyLength → (entry.1.length : Int) = keyLength) :
    keyCount keyLength line expected (keyCountText entry) = .ok entry := by
  have accepted : (entry.1.isEmpty || (0 < keyLength && (entry.1.length : Int) != keyLength) ||
      !Numeral.isSigned (Numeral.written entry.2)) = false := by
    simpa [nonempty, Numeral.isSigned_written] using long
  rw [keyCount, keyCountText, Text.cutFirst?_append_cons noEquals]
  dsimp only
  rw [if_neg (Bool.eq_false_iff.mp accepted), readInteger_written short]
  rfl

theorem keyCounts_keyCountText (writable : IsWritable entries)
    (long : 0 < keyLength → ∀ entry ∈ entries, (entry.1.length : Int) = keyLength) :
    keyCounts keyLength line expected (entries.map keyCountText) = .ok entries := by
  have each : (entries.map keyCountText).mapM (keyCount keyLength line expected) =
      .ok entries := by
    rw [mapM_eq_ok_iff, List.forall₂_map_left_iff, List.forall₂_same]
    intro entry member
    exact keyCount_keyCountText (writable.nonempty entry member) (writable.apart entry member).2.1
      (writable.short entry member) fun positive => long positive entry member
  rw [keyCounts, each]
  exact congrArg Except.ok (OrderedMap.ofList_of_nodup writable.distinct)

/-! ## Spaces after commas -/

/-- A text with spaces after its commas, for each comma as many as a list of numbers says and none
where the list is too short. -/
def spread : List Nat → Text → Text
  | _, [] => []
  | gaps, c :: text =>
      if c = ',' then ',' :: (List.replicate (gaps.headD 0) ' ' ++ spread gaps.tail text)
      else c :: spread gaps text

theorem joinListFrom_append (pieces others : List Text) :
    joinListFrom line expected joined (pieces ++ others) =
      joinListFrom line expected joined pieces >>=
        fun between => joinListFrom line expected between others := by
  induction pieces generalizing joined with
  | nil => rfl
  | cons piece pieces induction =>
      rw [List.cons_append, joinListFrom, joinListFrom]
      split
      · exact induction
      · rfl

theorem eq_append_flatten_of_joinListFrom {pieces : List Text}
    (read : joinListFrom line expected joined pieces = .ok result) :
    result = joined ++ pieces.flatten := by
  induction pieces generalizing joined with
  | nil =>
      cases read
      simp
  | cons piece pieces induction =>
      rw [joinListFrom] at read
      split at read
      · rw [induction read, List.flatten_cons, List.append_assoc]
      · cases read

/-- Behind a text that is joined already, the pieces of a text can be joined, to a result. -/
def Joins (line : Text) (expected : String) (joined text result : Text) : Prop :=
  ∃ first others, Text.pieces ' ' text = first :: others ∧
    joinListFrom line expected (joined ++ first) others = .ok result

theorem joins_nil : Joins line expected joined [] joined :=
  ⟨[], [], rfl, by rw [List.append_nil]; rfl⟩

theorem Joins.cons {c : Char} (other : c ≠ ' ')
    (joins : Joins line expected (joined ++ [c]) text result) :
    Joins line expected joined (c :: text) result := by
  obtain ⟨first, others, split, read⟩ := joins
  refine ⟨c :: first, others, ?_, ?_⟩
  · rw [Text.pieces, if_neg other, split]
    rfl
  · rwa [List.append_assoc] at read

/-- A space behind a comma is passed over. -/
theorem Joins.space (comma : joined.getLast? = some ',')
    (joins : Joins line expected joined text result) :
    Joins line expected joined (' ' :: text) result := by
  obtain ⟨first, others, split, read⟩ := joins
  refine ⟨[], first :: others, ?_, ?_⟩
  · rw [Text.pieces, if_pos rfl, split]
  · rw [List.append_nil, joinListFrom, if_pos comma]
    exact read

theorem Joins.spaces (comma : joined.getLast? = some ',')
    (joins : Joins line expected joined text result) (count : Nat) :
    Joins line expected joined (List.replicate count ' ' ++ text) result := by
  induction count with
  | zero => exact joins
  | succ count induction => exact .space comma induction

/-- Spaces after commas do not change what a text is joined to. -/
theorem joins_spread (noSpace : ' ' ∉ text) (gaps : List Nat) (joined : Text) :
    Joins line expected joined (spread gaps text) (joined ++ text) := by
  induction text generalizing gaps joined with
  | nil =>
      rw [List.append_nil]
      exact joins_nil
  | cons c text induction =>
      rw [List.mem_cons, not_or] at noSpace
      have later := fun gaps => induction noSpace.2 gaps (joined ++ [c])
      simp only [List.append_assoc, List.singleton_append] at later
      rw [spread]
      split
      next comma =>
        subst comma
        apply Joins.cons (by decide)
        exact (later gaps.tail).spaces List.getLast?_concat (gaps.headD 0)
      next => exact (later gaps).cons (Ne.symm noSpace.1)

/-- The arguments of a text are joined as its pieces are, though empty ones at the end are
missing. -/
theorem listArgument_of_joins (joins : Joins line expected [] text result) :
    listArgument line (fields text) 0 expected = .ok result := by
  obtain ⟨first, others, split, read⟩ := joins
  obtain ⟨count, whole⟩ := Text.exists_append_replicate (Text.pieces ' ' text)
  rw [split, show Text.dropEmptyEnd (first :: others) = fields text by rw [fields, split]] at whole
  rw [listArgument, List.drop_zero]
  cases found : fields text with
  | nil =>
      -- All pieces are empty, and so is what they are joined to.
      rw [found, List.nil_append] at whole
      have empty : (first :: others).flatten = [] := by rw [whole, List.flatten_replicate_nil]
      rw [eq_append_flatten_of_joinListFrom read, List.nil_append, ← List.flatten_cons, empty]
  | cons argument arguments =>
      rw [found, List.cons_append] at whole
      obtain ⟨rfl, rfl⟩ := List.cons.inj whole
      rw [List.nil_append, joinListFrom_append] at read
      obtain ⟨between, front, back⟩ := bind_eq_ok_iff.mp read
      rw [eq_append_flatten_of_joinListFrom back, List.flatten_replicate_nil, List.append_nil]
      exact front

/-- Spaces at the end of a text are no arguments. -/
theorem fields_append_replicate (text : Text) (count : Nat) :
    fields (text ++ List.replicate count ' ') = fields text := by
  obtain ⟨apart, last, before, same⟩ :=
    Text.dropEmptyEnd_pieces_eq_iff.mp (rfl : fields text = fields text)
  refine Text.dropEmptyEnd_pieces_eq_iff.mpr ⟨apart, last, before + count, ?_⟩
  rw [List.replicate_add, ← List.append_assoc, ← same]

theorem Text.mem_joinWith {separator c : Char} {texts : List Text}
    (member : c ∈ joinWith [separator] texts) : c = separator ∨ ∃ text ∈ texts, c ∈ text := by
  induction texts with
  | nil => cases member
  | cons text texts induction =>
      cases texts with
      | nil => exact .inr ⟨text, List.mem_cons_self, member⟩
      | cons next texts =>
          rw [joinWith, List.append_assoc, List.mem_append, List.singleton_append,
            List.mem_cons] at member
          · rcases member with first | same | later
            · exact .inr ⟨text, List.mem_cons_self, first⟩
            · exact .inl same
            · rcases induction later with same | ⟨other, inside, found⟩
              · exact .inl same
              · exact .inr ⟨other, List.mem_cons_of_mem text inside, found⟩
          · simp

theorem getLast?_map_keyCountText : (entries.map keyCountText).getLast? ≠ some [] := by
  intro last
  obtain ⟨entry, _, same⟩ := List.mem_map.mp (List.mem_of_getLast? last)
  exact keyCountText_ne_nil entry same

/-- Keys with counts are the pieces between the separators that join them, whatever separators
follow. -/
theorem dropEmptyEnd_pieces_keyCounts {separator : Char}
    (apart : ∀ entry ∈ entries, separator ∉ entry.1) (noDigit : separator.isDigit = false)
    (noMinus : separator ≠ '-') (noEquals : separator ≠ '=') (count : Nat) :
    Text.dropEmptyEnd (Text.pieces separator (Text.joinWith [separator]
        (entries.map keyCountText) ++ List.replicate count separator)) =
      entries.map keyCountText := by
  refine Text.dropEmptyEnd_pieces_eq_iff.mpr ⟨?_, getLast?_map_keyCountText, count, rfl⟩
  simp only [List.forall_mem_map]
  intro entry member
  exact not_mem_keyCountText (apart entry member) noDigit noMinus noEquals

theorem commaFields_keyCounts (writable : IsWritable entries) (commas : Nat) :
    commaFields (Text.joinWith [','] (entries.map keyCountText) ++ List.replicate commas ',') =
      entries.map keyCountText := by
  apply dropEmptyEnd_pieces_keyCounts _ rfl (by decide) (by decide)
  exact fun entry member => (writable.apart entry member).1

theorem fields_keyCounts (writable : IsWritable entries) (spaces : Nat) :
    fields (Text.joinWith [' '] (entries.map keyCountText) ++ List.replicate spaces ' ') =
      entries.map keyCountText := by
  apply dropEmptyEnd_pieces_keyCounts _ rfl (by decide) (by decide)
  exact fun entry member => (writable.apart entry member).2.2

theorem not_mem_keyCounts (writable : IsWritable entries) (commas : Nat) :
    ' ' ∉ Text.joinWith [','] (entries.map keyCountText) ++ List.replicate commas ',' := by
  intro member
  rcases List.mem_append.mp member with joined | comma
  · rcases Text.mem_joinWith joined with same | ⟨text, inside, found⟩
    · exact absurd same (by decide)
    · obtain ⟨entry, among, rfl⟩ := List.mem_map.mp inside
      exact not_mem_keyCountText (writable.apart entry among).2.2 rfl (by decide) (by decide) found
  · exact absurd (List.eq_of_mem_replicate comma) (by decide)

/-- Keys with counts are read back from their lines: from a list with commas between and after
them and any spaces after the commas, and from a list with spaces between and after them. -/
theorem keyCounts_inverse (keyword : Text) (plain : IsPlainKeyword keyword)
    (entries : OrderedMap Text Int) (writable : IsWritable entries) :
    (∀ (keyLength : Int) (gaps : List Nat) (commas spaces : Nat),
      (0 < keyLength → ∀ entry ∈ entries, (entry.1.length : Int) = keyLength) →
        ∃ token, tokenize (keyword ++ ' ' ::
            (spread gaps (Text.joinWith [','] (entries.map keyCountText) ++
              List.replicate commas ',') ++ List.replicate spaces ' ')) = .item (.token token) ∧
          token.keyword = keyword ∧
            keyValueList token.line token.arguments 0 keyLength = .ok entries) ∧
    ∀ spaces : Nat,
      ∃ token, tokenize (keyword ++ ' ' ::
          (Text.joinWith [' '] (entries.map keyCountText) ++ List.replicate spaces ' ')) =
            .item (.token token) ∧
        token.keyword = keyword ∧
          spacedKeyValues token.line token.arguments 0 = .ok entries := by
  constructor
  · intro keyLength gaps commas spaces long
    refine ⟨_, plain.tokenize_cons _, rfl, ?_⟩
    have joins : ∀ line expected, Joins line expected [] _ _ := fun _ _ =>
      joins_spread (not_mem_keyCounts writable commas) gaps []
    rw [keyValueList, fields_append_replicate, listArgument_of_joins (joins _ _), List.nil_append]
    show keyCounts keyLength _ _ (commaFields _) = _
    rw [commaFields_keyCounts writable]
    exact keyCounts_keyCountText writable long
  · intro spaces
    refine ⟨_, plain.tokenize_cons _, rfl, ?_⟩
    rw [spacedKeyValues, List.drop_zero, fields_keyCounts writable]
    exact keyCounts_keyCountText writable fun positive => absurd positive (by decide)

/-- Two countries with spaces after the commas between and behind them. -/
theorem keyCounts_inverse_spaced :
    (∃ token, tokenize "entry-ips us=8,   de=-16,, ,  ".toList = .item (.token token) ∧
      token.keyword = "entry-ips".toList ∧
        keyValueList token.line token.arguments 0 2 =
          .ok [("us".toList, 8), ("de".toList, -16)]) ∧
    ∃ token, tokenize "entry-ips us=8 de=-16 ".toList = .item (.token token) ∧
      token.keyword = "entry-ips".toList ∧
        spacedKeyValues token.line token.arguments 0 =
          .ok [("us".toList, 8), ("de".toList, -16)] := by
  have inverse := keyCounts_inverse "entry-ips".toList
    ⟨by decide, by decide, by decide, by decide, by decide⟩
    [("us".toList, 8), ("de".toList, -16)] ⟨by decide, by decide, by decide, by decide⟩
  exact ⟨inverse.1 2 [3, 0, 1] 3 2 (by decide), inverse.2 1⟩

end RelayDescriptor
