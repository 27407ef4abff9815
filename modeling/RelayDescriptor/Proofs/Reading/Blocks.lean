import RelayDescriptor.Proofs.Line.Blocks
import RelayDescriptor.Proofs.Reading.Content
import RelayDescriptor.Proofs.Text.Encoding

/-!
# Embedded blocks

Whatever stands in an embedded block, a document says the same apart from its digests,
also if the block is left out.  Digests do look into blocks, so this needs a grammar that
keeps them apart from everything else.
-/

namespace RelayDescriptor

namespace Document

variable {above inside others below : List Text} {opening closing : Text} {lines : List Text}
  {blob other : Blob} {range otherRange : ByteRange} {grammar : Grammar} {strict : Bool}
  {origin : Option Text}

theorem parts_encode_written (each : ∀ line ∈ lines, IsLine line) :
    parts (Utf8.encode (written lines)) = splitAnnotations lines := by
  rw [parts, Utf8.decode_encode, lines_written each]

/-- Documents that are written line by line say the same if their lines have the same annotations
and the same items. -/
theorem parse_content_of_written (separates : grammar.SeparatesDigests)
    (each : ∀ line ∈ lines, IsLine line) (otherEach : ∀ line ∈ others, IsLine line)
    (holds : blob.slice range = Utf8.encode (written lines))
    (otherHolds : other.slice otherRange = Utf8.encode (written others))
    (annotations : (splitAnnotations lines).1 = (splitAnnotations others).1)
    (items : Scan.items (splitAnnotations lines).2 = Scan.items (splitAnnotations others).2) :
    (parse blob range grammar strict origin).map (content grammar.digestNames) =
      (parse other otherRange grammar strict origin).map (content grammar.digestNames) := by
  have same : parts (blob.slice range) = splitAnnotations lines := by
    rw [holds, parts_encode_written each]
  have otherSame : parts (other.slice otherRange) = splitAnnotations others := by
    rw [otherHolds, parts_encode_written otherEach]
  apply parse_content_of_parts separates
  · rw [same, otherSame, annotations]
  · rw [same, otherSame, items]

/-- A block leaves the annotations and the items around it. -/
theorem splitAnnotations_block (outside : Scan.EndsOutside above)
    (opens : opensBlock opening = true) (within : ∀ line ∈ inside, closesBlock line = false)
    (closes : closesBlock closing = true) (below : List Text) :
    let split := splitAnnotations (above ++ opening :: (inside ++ closing :: below))
    split.1 = (splitAnnotations above).1 ∧
      Scan.items split.2 = Scan.items (splitAnnotations above).2 ++ Scan.items below := by
  have plain : ∀ line, (opening :: (inside ++ closing :: below)).head? = some line →
      isAnnotation line = false := by
    rintro line ⟨⟩
    exact isAnnotation_of_opensBlock opens
  intro split
  have same : split = _ := splitAnnotations_append (.inr plain)
  rw [same]
  refine ⟨rfl, ?_⟩
  rw [Scan.items_append (Scan.endsOutside_splitAnnotations outside),
    Scan.items_block opens within closes]

theorem splitAnnotations_without_block (outside : Scan.EndsOutside above)
    (body : ∃ line ∈ above, isAnnotation line = false) (below : List Text) :
    let split := splitAnnotations (above ++ below)
    split.1 = (splitAnnotations above).1 ∧
      Scan.items split.2 = Scan.items (splitAnnotations above).2 ++ Scan.items below := by
  intro split
  have same : split = _ := splitAnnotations_append (.inl body)
  rw [same]
  exact ⟨rfl, Scan.items_append (Scan.endsOutside_splitAnnotations outside) below⟩

/-- Other lines in an embedded block, or no block at all, do not change what a document says apart
from its digests, nor why it is refused, if the grammar has ASCII end markers and makes up its
record without a look at digests. -/
theorem parse_block (grammar : Grammar) (strict : Bool) (origin : Option Text)
    (separates : grammar ∈ Registry.standard ∨
      grammar.check = .ok grammar ∧ Digests.IsAsciiMarker grammar.digestEnd ∧
        Digests.IsAsciiMarker grammar.sha256End ∧ grammar.schema.Ignores grammar.digestNames)
    (above inside below : List Text) (opening closing : Text) (outside : Scan.EndsOutside above)
    (opens : opensBlock opening = true) (closes : closesBlock closing = true)
    (within : ∀ line ∈ inside, closesBlock line = false)
    (each : ∀ line ∈ above ++ opening :: (inside ++ closing :: below), IsLine line)
    (blob : Blob) (range : ByteRange)
    (holds : blob.slice range =
      Utf8.encode (written (above ++ opening :: (inside ++ closing :: below)))) :
    let reads := fun blob range =>
      (parse blob range grammar strict origin).map (content grammar.digestNames)
    (∀ others : List Text, (∀ line ∈ others, IsLine line ∧ closesBlock line = false) →
        ∀ other otherRange, other.slice otherRange =
            Utf8.encode (written (above ++ opening :: (others ++ closing :: below))) →
          reads other otherRange = reads blob range) ∧
      ((∃ line ∈ above, isAnnotation line = false) →
        ∀ other otherRange, other.slice otherRange = Utf8.encode (written (above ++ below)) →
          reads other otherRange = reads blob range) := by
  intro reads
  have separates := Registry.separatesDigests_of_check separates
  simp only [List.forall_mem_append, List.forall_mem_cons] at each
  obtain ⟨aboveLines, isOpening, insideLines, isClosing, belowLines⟩ := each
  have blockLines : ∀ others : List Text, (∀ line ∈ others, IsLine line) →
      ∀ line ∈ above ++ opening :: (others ++ closing :: below), IsLine line := by
    intro others otherLines
    simp only [List.forall_mem_append, List.forall_mem_cons]
    exact ⟨aboveLines, isOpening, otherLines, isClosing, belowLines⟩
  obtain ⟨marks, items⟩ := splitAnnotations_block outside opens within closes below
  refine ⟨?_, ?_⟩
  · intro others otherLines other otherRange same
    obtain ⟨otherMarks, otherItems⟩ := splitAnnotations_block outside opens
      (fun line member => (otherLines line member).2) closes below
    exact parse_content_of_written separates
      (blockLines others fun line member => (otherLines line member).1)
      (blockLines inside insideLines) same holds (otherMarks.trans marks.symm)
      (otherItems.trans items.symm)
  · intro body other otherRange same
    obtain ⟨otherMarks, otherItems⟩ := splitAnnotations_without_block outside body below
    exact parse_content_of_written separates
      (List.forall_mem_append.mpr ⟨aboveLines, belowLines⟩) (blockLines inside insideLines) same
      holds (otherMarks.trans marks.symm) (otherItems.trans items.symm)

/-- A grammar of documents with one keyword, with a SHA-1 digest up to a marker. -/
def titled (marker : Text) (arrange : Fields → Except Violation Fields) : Grammar where
  kind := .performance
  leading := "kw".toList
  constraints := .of ["kw".toList] [] []
  rules := [.once "kw" (.text "title")]
  schema := ⟨"Titled", [("title", .absent), (digestField, .absent)], arrange⟩
  passthrough := []
  cap := none
  digestEnd := some marker
  sha256End := none
  description := ""

/-- A keyword line in a block lets the digest begin.  So a marker that is not ASCII interrupts, and
a record that is made up with a look at the digest is another one. -/
theorem parse_block_needs_separation :
    let text := fun inside : List String => Utf8.encode (written
      ((["opt kw a", "-----BEGIN X-----"] ++ inside ++ ["-----END X-----"]).map String.toList))
    let reads := fun grammar inside =>
      parse ⟨text inside, none⟩ (wholeRange (text inside)) grammar false none
    let foreign := titled "é".toList .ok
    let prying := titled "end".toList fun fields =>
      if (OrderedMap.find? digestField fields).isSome then .error (.missing "a".toList)
      else .ok fields
    (foreign.check = .ok foreign ∧ prying.check = .ok prying) ∧
      Scan.EndsOutside ["opt kw a".toList] ∧ opensBlock "-----BEGIN X-----".toList = true ∧
      closesBlock "-----END X-----".toList = true ∧
      (∀ line ∈ ["kw".toList, "kw end".toList], IsLine line ∧ closesBlock line = false) ∧
      (∀ line ∈ ["opt kw a".toList, "-----BEGIN X-----".toList, "-----END X-----".toList],
        IsLine line) ∧
      (∃ document, reads foreign [] = .ok document) ∧
      reads foreign ["kw"] = .error (.interrupted (.notAscii ⟨0, "é".toList⟩)) ∧
      (∃ document, reads prying [] = .ok document) ∧
      reads prying ["kw end"] = .error (.violation (.missing "a".toList)) := by
  intro text reads foreign prying
  refine ⟨⟨Grammar.check_eq_ok_iff.mpr (by decide), Grammar.check_eq_ok_iff.mpr (by decide)⟩,
    by decide, by decide, by decide, by decide, by decide, ⟨_, rfl⟩, rfl, ⟨_, rfl⟩, rfl⟩

theorem parse_block_microdescriptor :
    ∃ grammar ∈ Registry.standard,
      let text := fun lines : List String => Utf8.encode (written (lines.map String.toList))
      let reads := fun bytes => (parse ⟨bytes, none⟩ (wholeRange bytes) grammar true none).map
        (content grammar.digestNames)
      let block := fun inside : List String =>
        ["@a", "onion-key", "-----BEGIN K-----"] ++ inside ++ ["-----END K-----", "family b"]
      reads (text (block ["onion-key", "@x", "", "-----BEGIN"])) = reads (text (block ["QUJD"])) ∧
        reads (text ["@a", "onion-key", "family b"]) = reads (text (block ["QUJD"])) := by
  have found : Registry.standard.find? .microdescriptor = some _ := rfl
  have member := List.mem_of_find?_eq_some found
  refine ⟨_, member, ?_⟩
  intro text reads block
  obtain ⟨replaced, removed⟩ := parse_block _ true none (.inl member)
    (["@a", "onion-key"].map String.toList) ["QUJD".toList] ["family b".toList]
    "-----BEGIN K-----".toList "-----END K-----".toList (by decide) (by decide) (by decide)
    (by decide) (by decide) ⟨text (block ["QUJD"]), none⟩ _ (slice_wholeRange _)
  refine ⟨?_, ?_⟩
  · exact replaced (["onion-key", "@x", "", "-----BEGIN"].map String.toList) (by decide) ⟨_, none⟩ _
      (slice_wholeRange _)
  · exact removed (by decide) ⟨_, none⟩ _ (slice_wholeRange _)

end Document

end RelayDescriptor
