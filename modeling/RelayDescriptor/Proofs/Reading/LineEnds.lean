import RelayDescriptor.Proofs.Reading.Blocks
import RelayDescriptor.Proofs.Reading.LineOffsets

/-!
# Ends of lines

Lines are read back whichever ends they have, but for a carriage return before an empty line
that ends with a line feed: these two are one end.  So other ends in the bytes of a document do
not change what it says apart from its digests, whether or not the bytes are UTF-8.
-/

namespace RelayDescriptor

/-- What a line ends with. -/
inductive LineEnd where
  | feed
  | returnFeed
  | loneReturn
  deriving Repr, DecidableEq

namespace LineEnd

def text : LineEnd → Text
  | feed => ['\n']
  | returnFeed => ['\r', '\n']
  | loneReturn => ['\r']

def bytes (lineEnd : LineEnd) : List UInt8 := lineEnd.text.map Ascii.byte

end LineEnd

/-- The text of lines, each with an end of its own. -/
def ended (rows : List (Text × LineEnd)) : Text :=
  rows.flatMap fun line => line.1 ++ line.2.text

/-- Where a line ends with a carriage return, no empty line that ends with a line feed follows. -/
def HasClearEnds (rows : List (Text × LineEnd)) : Prop :=
  rows.IsChain fun line next => line.2 = .loneReturn → next ≠ ([], .feed)

instance (rows : List (Text × LineEnd)) : Decidable (HasClearEnds rows) :=
  inferInstanceAs (Decidable (List.IsChain _ _))

/-- The bytes with another end in place of every line feed. -/
def withEnds (lineEnd : LineEnd) (bytes : List UInt8) : List UInt8 :=
  bytes.flatMap fun b => if b = lineFeed then lineEnd.bytes else [b]

variable {line : Text × LineEnd} {rows : List (Text × LineEnd)} {lineEnd : LineEnd} {text : Text}
  {bytes : List UInt8}

/-! ## Text -/

theorem betweenBreaks_lineEnd
    (clear : lineEnd = .loneReturn → text.head? ≠ some '\n') :
    betweenBreaks (lineEnd.text ++ text) = [] :: betweenBreaks text := by
  cases lineEnd with
  | feed => rfl
  | returnFeed => rfl
  | loneReturn => exact betweenBreaks_return (clear rfl)

theorem head?_ended_cons (isLine : IsLine line.1) (other : line ≠ ([], .feed)) :
    (ended (line :: rows)).head? ≠ some '\n' := by
  obtain ⟨content, lineEnd⟩ := line
  intro head
  cases content with
  | nil =>
      cases lineEnd with
      | feed => exact other rfl
      | returnFeed => cases head
      | loneReturn => cases head
  | cons c content =>
      obtain rfl := Option.some.inj head
      exact isLine.1 List.mem_cons_self

/-- Lines are read back from any ends that are clear. -/
theorem lines_ended (each : ∀ line ∈ rows, IsLine line.1) (clear : HasClearEnds rows) :
    lines (ended rows) = rows.map Prod.fst := by
  induction rows with
  | nil => rfl
  | cons line rows induction =>
      obtain ⟨isLine, others⟩ := List.forall_mem_cons.mp each
      have starts : line.2 = .loneReturn → (ended rows).head? ≠ some '\n' := by
        intro isReturn
        cases rows with
        | nil => simp [ended]
        | cons next rows =>
            exact head?_ended_cons (others next List.mem_cons_self)
              ((List.isChain_cons_cons.mp clear).1 isReturn)
      have whole : ended (line :: rows) = line.1 ++ (line.2.text ++ ended rows) :=
        List.append_assoc _ _ _
      rw [whole, lines_append_of_break isLine.1 isLine.2 (betweenBreaks_lineEnd starts),
        induction others (List.isChain_of_isChain_cons clear), List.map_cons]

/-! ## Bytes -/

theorem withEnds_append (first second : List UInt8) :
    withEnds lineEnd (first ++ second) = withEnds lineEnd first ++ withEnds lineEnd second :=
  List.flatMap_append

theorem withEnds_of_not_mem (noFeed : lineFeed ∉ bytes) : withEnds lineEnd bytes = bytes := by
  induction bytes with
  | nil => rfl
  | cons b bytes induction =>
      rw [List.mem_cons, not_or] at noFeed
      rw [withEnds, List.flatMap_cons, if_neg (Ne.symm noFeed.1)]
      exact congrArg (b :: ·) (induction noFeed.2)

theorem not_mem_withEnds_loneReturn (bytes : List UInt8) :
    lineFeed ∉ withEnds .loneReturn bytes := by
  intro member
  obtain ⟨b, _, inside⟩ := List.mem_flatMap.mp member
  split at inside
  next => exact absurd inside (by decide)
  next other => exact other (List.mem_singleton.mp inside).symm

theorem isBreak_bytes (bytes : List UInt8) : IsBreak lineEnd.bytes (withEnds lineEnd bytes) := by
  cases lineEnd with
  | feed => exact .feed _
  | returnFeed => exact .returnFeed _
  | loneReturn =>
      apply IsBreak.loneReturn
      intro head
      exact not_mem_withEnds_loneReturn bytes (List.mem_of_head? head)

/-- Other ends do not change the lines that bytes are decoded to. -/
theorem lines_decode_withEnds (noReturn : carriageReturn ∉ bytes) :
    lines (Utf8.decode (withEnds lineEnd bytes)) = lines (Utf8.decode bytes) := by
  -- The induction is on the bytes behind the first line.
  induction size : bytes.length using Nat.strongRecOn generalizing bytes with
  | ind count induction =>
      by_cases whole : IsUnbroken bytes
      · rw [withEnds_of_not_mem whole.1]
      obtain ⟨front, separator, rest, rfl, unbroken, isBreak⟩ := exists_break whole
      simp only [List.mem_append, not_or] at noReturn
      obtain ⟨_, noReturnEnd, noReturnRest⟩ := noReturn
      cases isBreak with
      | feed =>
          have shorter : rest.length < count := by
            rw [List.length_append, List.length_append, List.length_singleton] at size
            omega
          have ends : withEnds lineEnd [lineFeed] = lineEnd.bytes := List.append_nil _
          rw [withEnds_append, withEnds_append, withEnds_of_not_mem unbroken.1, ends,
            lines_decode_break unbroken (isBreak_bytes rest),
            lines_decode_break unbroken (.feed rest),
            induction rest.length shorter noReturnRest rfl]
      | returnFeed => exact absurd List.mem_cons_self noReturnEnd
      | loneReturn => exact absurd List.mem_cons_self noReturnEnd

/-! ## Documents -/

namespace Document

theorem parts_withEnds (lineEnd : LineEnd) (noReturn : carriageReturn ∉ bytes) :
    parts (withEnds lineEnd bytes) = parts bytes := by
  rw [parts, lines_decode_withEnds noReturn, parts]

/-- Lines are read back whichever clear ends they have; and documents whose ends differ say the same
apart from their digests, or are refused for the same reason, if the grammar has ASCII end markers
and makes up its record without a look at digests. -/
theorem parse_withEnds :
    (∀ rows : List (Text × LineEnd), (∀ line ∈ rows, IsLine line.1) → HasClearEnds rows →
      lines (ended rows) = rows.map Prod.fst) ∧
    ∀ grammar : Grammar,
      (grammar ∈ Registry.standard ∨
        grammar.check = .ok grammar ∧ Digests.IsAsciiMarker grammar.digestEnd ∧
          Digests.IsAsciiMarker grammar.sha256End ∧ grammar.schema.Ignores grammar.digestNames) →
      ∀ (strict : Bool) (origin : Option Text) (blob other : Blob) (range otherRange : ByteRange)
        (lineEnd : LineEnd), carriageReturn ∉ blob.slice range →
        other.slice otherRange = withEnds lineEnd (blob.slice range) →
          (parse other otherRange grammar strict origin).map (content grammar.digestNames) =
            (parse blob range grammar strict origin).map (content grammar.digestNames) := by
  refine ⟨fun rows => lines_ended, ?_⟩
  intro grammar separates strict origin blob other range otherRange lineEnd noReturn same
  have parts := parts_withEnds lineEnd noReturn
  rw [← same] at parts
  exact parse_content_of_parts (Registry.separatesDigests_of_check separates)
    (congrArg Prod.fst parts) (congrArg (Scan.items ·.2) parts)

/-- The digest begins behind a line feed, but not behind a carriage return.  So a marker that is not
ASCII interrupts only where lines end with line feeds, and a record that is made up with a look at
the digest is another one. -/
theorem parse_withEnds_needs_separation :
    let text := fun lines : List String => Utf8.encode (written (lines.map String.toList))
    let reads := fun grammar bytes => parse ⟨bytes, none⟩ (wholeRange bytes) grammar false none
    let foreign := titled "é".toList .ok
    let prying := titled "end".toList fun fields =>
      if (OrderedMap.find? digestField fields).isSome then .error (.missing "a".toList)
      else .ok fields
    let plain := text ["@a", "kw x"]
    let marked := text ["@a", "kw end"]
    (foreign.check = .ok foreign ∧ prying.check = .ok prying) ∧
      (carriageReturn ∉ plain ∧ carriageReturn ∉ marked) ∧
      reads foreign plain = .error (.interrupted (.notAscii ⟨0, "é".toList⟩)) ∧
      (∃ document, reads foreign (withEnds .loneReturn plain) = .ok document) ∧
      reads prying marked = .error (.violation (.missing "a".toList)) ∧
      ∃ document, reads prying (withEnds .loneReturn marked) = .ok document := by
  intro text reads foreign prying plain marked
  refine ⟨⟨?_, ?_⟩, ?_, ?_, ?_, ?_, ?_⟩
  · exact Grammar.check_eq_ok_iff.mpr (by decide)
  · exact Grammar.check_eq_ok_iff.mpr (by decide)
  · decide
  · rfl
  · exact exists_of_isOk rfl
  · rfl
  · exact exists_of_isOk rfl

/-- The second byte string is not UTF-8: a character breaks off at the end of its first line. -/
theorem parse_withEnds_microdescriptor :
    lines "a\r\rb\r\n\nc\n".toList = ["a", "", "b", "", "c"].map String.toList ∧
      ∃ grammar ∈ Registry.standard,
        let bytes := "@a".toList.map Ascii.byte ++ [0xE2, 0x82, lineFeed] ++
          Utf8.encode (written (["onion-key", "", "family b"].map String.toList))
        let reads := fun bytes => (parse ⟨bytes, none⟩ (wholeRange bytes) grammar true none).map
          (content grammar.digestNames)
        reads (withEnds .returnFeed bytes) = reads bytes ∧
          reads (withEnds .loneReturn bytes) = reads bytes := by
  obtain ⟨inverse, same⟩ := parse_withEnds
  have found : Registry.standard.find? .microdescriptor = some _ := rfl
  have member := List.mem_of_find?_eq_some found
  refine ⟨?_, _, member, ?_⟩
  · exact inverse [("a".toList, .loneReturn), ([], .loneReturn), ("b".toList, .returnFeed),
      ([], .feed), ("c".toList, .feed)] (by decide) (by decide)
  intro bytes reads
  have other := fun lineEnd => same _ (.inl member) true none ⟨bytes, none⟩
    ⟨withEnds lineEnd bytes, none⟩ (wholeRange bytes) (wholeRange (withEnds lineEnd bytes)) lineEnd
    (by decide) (by rw [slice_wholeRange, slice_wholeRange])
  exact ⟨other .returnFeed, other .loneReturn⟩

end Document

end RelayDescriptor
