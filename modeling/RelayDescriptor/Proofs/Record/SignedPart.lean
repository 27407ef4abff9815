import RelayDescriptor.Proofs.Ranges.AnnotationBlock
import RelayDescriptor.Proofs.Reading.Blocks
import RelayDescriptor.Proofs.Record.Digests

/-!
# What digests do not cover

A digest depends on the bytes from the leading keyword through the first end marker only.
Annotations above the keyword cannot hold it at the beginning of a line, and what follows
the first marker cannot move that marker.
-/

namespace RelayDescriptor

namespace Document

variable {annotations body keyword marker raw rest signed tail : List UInt8} {position start : Nat}

/-- Each line of some bytes is an annotation that ends with a line feed. -/
structure AreAnnotations (bytes : List UInt8) : Prop where
  closed : IsClosed bytes
  marked : ∀ line ∈ byteLines bytes, isAnnotationLine line = true

theorem AreAnnotations.annotationAt (all : AreAnnotations annotations)
    (aligned : IsLineStart (annotations ++ rest) position)
    (inside : position < annotations.length) : AnnotationAt (annotations ++ rest) position := by
  have bound : position < (annotations ++ rest).length := by
    rw [List.length_append]
    omega
  obtain ⟨above, line, below, split, rfl⟩ := exists_line_of_isLineStart aligned bound
  have parts := byteLines_append all.closed rest
  have before : above.flatten.length < (byteLines annotations).flatten.length := by
    rwa [flatten_byteLines]
  obtain ⟨between, lines, _⟩ := above_of_length_lt split parts before
  rw [annotationAt_iff split]
  apply all.marked
  rw [lines]
  simp

theorem AreAnnotations.isKeywordStart (all : AreAnnotations annotations) (nonempty : keyword ≠ [])
    (unmarked : keyword.head? ≠ some atSign) (begins : keyword <+: rest) :
    IsKeywordStart keyword (annotations ++ rest) annotations.length := by
  have aligned : IsLineStart (annotations ++ rest) annotations.length := by
    have bound : annotations.length ≤ (annotations ++ rest).length := by simp
    rw [isLineStart_iff_isClosed bound, List.take_left]
    exact all.closed
  refine ⟨⟨aligned, by rwa [List.drop_left]⟩, ?_⟩
  -- The keyword at an earlier line would be at the beginning of an annotation.
  rintro earlier before ⟨lineStart, occurs⟩
  obtain ⟨_, marked⟩ := all.annotationAt lineStart before
  obtain ⟨first, others, rfl⟩ := List.exists_cons_of_ne_nil nonempty
  obtain ⟨behind, same⟩ := occurs
  rw [← same, List.cons_append, List.cons_prefix_cons] at marked
  exact unmarked (congrArg some marked.1.symm)

theorem AreAnnotations.fromKeyword? (all : AreAnnotations annotations) (nonempty : keyword ≠ [])
    (unmarked : keyword.head? ≠ some atSign) (begins : keyword <+: rest) :
    Digests.fromKeyword? keyword (annotations ++ rest) = some rest :=
  Digests.fromKeyword?_eq_some_iff.mpr
    ⟨annotations.length, all.isKeywordStart nonempty unmarked begins, List.drop_left.symm⟩

/-- What follows the first marker is no part of what is signed. -/
theorem IsSignedPart.append (part : IsSignedPart marker raw start signed) (tail : List UInt8) :
    IsSignedPart marker (raw ++ tail) start signed := by
  obtain ⟨stop, behind, bound, occurs, least, rfl⟩ := part
  have room := occurs.length_le
  rw [List.length_drop] at room
  refine ⟨stop, behind, ?_, ?_, ?_, ?_⟩
  · rw [List.length_append]
    omega
  · rw [List.drop_append_of_le_length bound]
    exact occurs.trans (List.prefix_append _ tail)
  · intro earlier after before found
    apply least earlier after before
    rw [List.drop_append_of_le_length (by omega)] at found
    exact List.prefix_of_prefix_length_le found (List.prefix_append _ tail)
      (by rw [List.length_drop]; omega)
  · rw [List.take_append_of_le_length (by omega)]

/-- The part that is signed ends with its own first marker. -/
theorem IsSignedPart.self (part : IsSignedPart marker raw 0 signed) :
    signed <+: raw ∧ IsSignedPart marker signed 0 signed := by
  obtain ⟨stop, _, bound, occurs, least, same⟩ := part
  rw [List.drop_zero] at same
  have room := occurs.length_le
  rw [List.length_drop] at room
  have length : signed.length = stop + marker.length := by
    rw [same, List.length_take]
    omega
  obtain ⟨others, rfl⟩ : signed <+: raw := by
    rw [same]
    exact List.take_prefix _ raw
  have within : ∀ earlier ≤ stop,
      (signed ++ others).drop earlier = signed.drop earlier ++ others :=
    fun earlier before => List.drop_append_of_le_length (by omega)
  refine ⟨List.prefix_append signed others, stop, Nat.zero_le stop, by omega, ?_, ?_, ?_⟩
  · rw [within stop (Nat.le_refl stop)] at occurs
    apply List.prefix_of_prefix_length_le occurs (List.prefix_append _ others)
    rw [List.length_drop]
    omega
  · intro earlier after before found
    apply least earlier after before
    rw [within earlier (Nat.le_of_lt before)]
    exact found.trans (List.prefix_append _ others)
  · rw [← length, List.take_length, List.drop_zero]

theorem IsSignedPart.throughMarker? (part : IsSignedPart marker raw 0 signed) :
    Digests.throughMarker? marker raw = some signed := by
  have found := (Digests.throughMarker?_eq_some_iff (Nat.zero_le raw.length)).mpr part
  rwa [List.drop_zero] at found

end Document

theorem Ascii.flaw?_eq_none_iff {text : Text} :
    flaw? text = none ↔ ∀ c ∈ text, isAscii c = true := by
  rw [flaw?, ← List.dropWhile_eq_nil_iff]
  split
  next empty => simp [empty]
  next some => simpa using some

/-- The digest of bytes up to a marker that can be searched, or what is wrong with the marker. -/
theorem Digests.through_eq (digest : List UInt8 → Text) (marker : Option Text)
    (bytes : List UInt8) :
    through digest marker bytes = match marker.bind Ascii.flaw? with
      | some flaw => .error flaw
      | none => .ok (textOf? digest marker (some bytes)) := by
  split
  next flaw found =>
    obtain ⟨text, rfl, foreign⟩ := Option.bind_eq_some_iff.mp found
    rw [through, Ascii.encode, foreign]
    rfl
  next none =>
    apply through_of_isAsciiMarker
    rintro text rfl
    exact Ascii.flaw?_eq_none_iff.mp none

namespace Grammar

open Document

variable {grammar : Grammar} {rule : DigestRule} {bytes raw signed : List UInt8}

/-- The digest of bytes that a rule asks for, as the fields get it. -/
def digestOf (grammar : Grammar) (rule : DigestRule) (raw : List UInt8) :
    Except Fault (Option Value) :=
  (grammar.digests raw).map fun digests => OrderedMap.find? rule.field (digests.write [])

/-- What is wrong with the keyword and the markers that digests are searched with. -/
def digestFlaw? (grammar : Grammar) : Option Ascii.Flaw :=
  (Ascii.flaw? grammar.leading).or
    ((grammar.digestEnd.bind Ascii.flaw?).or (grammar.sha256End.bind Ascii.flaw?))

/-- The digest of signed bytes, unless something is wrong with the keyword or with a marker. -/
def signedDigest (grammar : Grammar) (rule : DigestRule) (signed : List UInt8) :
    Except Fault (Option Value) :=
  match grammar.digestFlaw? with
  | some flaw => .error (.interrupted (.notAscii flaw))
  | none => .ok (some (.text (rule.text signed)))

theorem digestOf_eq_signedDigest (asked : rule ∈ grammar.digestRules)
    (found : Digests.fromKeyword? (Utf8.encode grammar.leading) raw = some bytes)
    (through : Digests.throughMarker? (Utf8.encode rule.marker) bytes = some signed) :
    grammar.digestOf rule raw = grammar.signedDigest rule signed := by
  rw [digestOf, digests, Digests.compute, signedDigest, digestFlaw?, Ascii.encode]
  cases keyword : Ascii.flaw? grammar.leading with
  | some flaw => rfl
  | none =>
      rw [Utf8.encode_of_isAscii (Ascii.flaw?_eq_none_iff.mp keyword)] at found
      simp only [bind, Except.bind, found, Digests.through_eq, Option.none_or]
      cases sha1 : grammar.digestEnd.bind Ascii.flaw? with
      | some flaw => rfl
      | none =>
          cases sha256 : grammar.sha256End.bind Ascii.flaw? with
          | some flaw => rfl
          | none =>
              have written : ∀ text, Ascii.flaw? rule.marker = none →
                  Digests.textOf? text (some rule.marker) (some bytes) = some (text signed) := by
                intro text ascii
                rw [Utf8.encode_of_isAscii (Ascii.flaw?_eq_none_iff.mp ascii)] at through
                rw [Digests.textOf?, Option.bind_some, Option.bind_some, through, Option.map_some]
              apply congrArg Except.ok
              rcases mem_digestRules_iff.mp asked with ⟨marker, own, rfl⟩ | ⟨marker, own, rfl⟩
              · rw [own] at sha1 ⊢
                exact (Digests.find?_write_sha1 rfl).trans
                  (congrArg (Option.map Value.text) (written _ sha1))
              · rw [own] at sha256 ⊢
                exact (Digests.find?_write_sha256 rfl).trans
                  (congrArg (Option.map Value.text) (written _ sha256))

theorem digestOf_of_isSignedPart (asked : rule ∈ grammar.digestRules)
    (nonempty : grammar.leading ≠ []) (unmarked : grammar.leading.head? ≠ some '@')
    {annotations body : List UInt8} (all : AreAnnotations annotations)
    (begins : Utf8.encode grammar.leading <+: body)
    (part : IsSignedPart (Utf8.encode rule.marker) body 0 signed) :
    grammar.digestOf rule (annotations ++ body) = grammar.signedDigest rule signed := by
  cases keyword : Ascii.flaw? grammar.leading with
  | some flaw =>
      rw [digestOf, digests, Digests.compute, signedDigest, digestFlaw?, Ascii.encode, keyword]
      rfl
  | none =>
      have ascii := Ascii.flaw?_eq_none_iff.mp keyword
      have encoded := Utf8.encode_of_isAscii ascii
      refine digestOf_eq_signedDigest asked ?_ part.throughMarker?
      apply all.fromKeyword?
      · rw [encoded]
        simpa using nonempty
      · rw [encoded, List.head?_map]
        intro marked
        obtain ⟨c, first, same⟩ := Option.map_eq_some_iff.mp marked
        have inside := ascii c (List.mem_of_head? first)
        obtain rfl : c = '@' := Ascii.byte_injective inside (by decide) same
        exact unmarked first
      · exact begins

/-- A digest does not change with the annotations above the keyword, nor with what follows the first
marker, if that comes after the keyword: it is the digest of the bytes from the keyword through
that marker. -/
theorem digestOf_frame (grammar : Grammar) (rule : DigestRule)
    (asked : rule ∈ grammar.digestRules) (nonempty : grammar.leading ≠ [])
    (unmarked : grammar.leading.head? ≠ some '@') (annotations body signed tail : List UInt8)
    (all : AreAnnotations annotations) (begins : Utf8.encode grammar.leading <+: body)
    (part : IsSignedPart (Utf8.encode rule.marker) body 0 signed) :
    grammar.digestOf rule (annotations ++ body ++ tail) = grammar.digestOf rule body ∧
    (Utf8.encode grammar.leading <+: signed →
      grammar.digestOf rule (annotations ++ body ++ tail) = grammar.digestOf rule signed ∧
      ∀ others rest, AreAnnotations others →
        grammar.digestOf rule (annotations ++ body ++ tail) =
          grammar.digestOf rule (others ++ signed ++ rest)) ∧
    ∀ digest, grammar.digestOf rule (annotations ++ body ++ tail) = .ok digest →
      digest = some (.text (rule.text signed)) := by
  have none : AreAnnotations [] := ⟨.inl rfl, by simp [byteLines]⟩
  have whole : grammar.digestOf rule (annotations ++ body ++ tail) =
      grammar.signedDigest rule signed := by
    rw [List.append_assoc]
    exact digestOf_of_isSignedPart asked nonempty unmarked all
      (begins.trans (List.prefix_append body tail)) (part.append tail)
  have alone : grammar.digestOf rule body = grammar.signedDigest rule signed :=
    digestOf_of_isSignedPart asked nonempty unmarked none begins part
  have framed : Utf8.encode grammar.leading <+: signed → ∀ others rest, AreAnnotations others →
      grammar.digestOf rule (others ++ signed ++ rest) = grammar.signedDigest rule signed := by
    intro within others rest othersAll
    rw [List.append_assoc]
    exact digestOf_of_isSignedPart asked nonempty unmarked othersAll
      (within.trans (List.prefix_append signed rest)) (part.self.2.append rest)
  refine ⟨whole.trans alone.symm, ?_, ?_⟩
  · intro within
    have cut := framed within [] [] none
    rw [List.nil_append, List.append_nil] at cut
    refine ⟨whole.trans cut.symm, ?_⟩
    intro others rest othersAll
    exact whole.trans (framed within others rest othersAll).symm
  · intro digest found
    rw [whole, signedDigest] at found
    split at found
    · cases found
    · cases found
      rfl

theorem digestOf_frame_annotated :
    let bytes := fun text : String => Utf8.encode text.toList
    let annotations := bytes "@a\n@ extra-info\n"
    let signed := bytes "extra-info b\nrouter-signature\n"
    ∃ grammar ∈ Registry.standard, ∃ rule ∈ grammar.digestRules, AreAnnotations annotations ∧
      IsSignedPart (Utf8.encode rule.marker) (signed ++ bytes "x") 0 signed ∧
        grammar.digestOf rule (annotations ++ (signed ++ bytes "x") ++ signed) =
          grammar.digestOf rule signed := by
  intro bytes annotations signed
  have registered : Registry.standard.find? .extraInfo = some _ := rfl
  have member := List.mem_of_find?_eq_some registered
  let grammar := ExtraInfo.grammar .extraInfo "Relay extra-info descriptor"
  let rule : DigestRule := ⟨digestField, "\nrouter-signature\n".toList, Digests.sha1Text⟩
  have asked : rule ∈ grammar.digestRules := List.mem_singleton_self _
  have all : AreAnnotations annotations := ⟨.inr (by decide), by decide⟩
  have part : IsSignedPart (Utf8.encode rule.marker) (signed ++ bytes "x") 0 signed :=
    (Digests.throughMarker?_eq_some_iff (Nat.zero_le _)).mp (by decide)
  refine ⟨grammar, member, rule, asked, all, part, ?_⟩
  obtain ⟨_, framed, _⟩ := digestOf_frame grammar rule asked (by decide) (by decide) annotations
    (signed ++ bytes "x") signed signed all (by decide) part
  exact (framed (by decide)).1

/-- An empty leading keyword is found above annotations, and a marker may end before the keyword
does, so that the bytes up to it hold no keyword. -/
theorem digestOf_frame_needs_keyword :
    let bytes := fun text : String => Utf8.encode text.toList
    let rule := fun marker : String => (⟨digestField, marker.toList, Digests.sha1Text⟩ : DigestRule)
    let empty : Grammar :=
      { titled "x".toList .ok with
        leading := [], constraints := .of [[]] [] [], rules := [⟨[], .text "title", false⟩] }
    let short := titled "k".toList .ok
    (empty.check = .ok empty ∧ rule "x" ∈ empty.digestRules ∧
      empty.leading.head? ≠ some '@' ∧ AreAnnotations (bytes "@a\n") ∧
      Utf8.encode empty.leading <+: bytes "x" ∧ IsSignedPart (bytes "x") (bytes "x") 0 (bytes "x") ∧
      empty.digestOf (rule "x") (bytes "@a\n" ++ bytes "x") ≠
        empty.digestOf (rule "x") (bytes "x")) ∧
    short.check = .ok short ∧ rule "k" ∈ short.digestRules ∧
      short.leading.head? ≠ some '@' ∧ Utf8.encode short.leading <+: bytes "kw" ∧
      IsSignedPart (bytes "k") (bytes "kw") 0 (bytes "k") ∧
      short.digestOf (rule "k") (bytes "kw") ≠ short.digestOf (rule "k") (bytes "k") := by
  intro bytes rule empty short
  have emptyAsked : rule "x" ∈ empty.digestRules := List.mem_singleton_self _
  have shortAsked : rule "k" ∈ short.digestRules := List.mem_singleton_self _
  refine ⟨⟨Grammar.check_eq_ok_iff.mpr (by decide), emptyAsked, by decide,
    ⟨.inr (by decide), by decide⟩, by decide,
    (Digests.throughMarker?_eq_some_iff (Nat.zero_le _)).mp (by decide), ?_⟩,
    Grammar.check_eq_ok_iff.mpr (by decide), shortAsked, by decide, by decide,
    (Digests.throughMarker?_eq_some_iff (Nat.zero_le _)).mp (by decide), ?_⟩
  · -- Both texts begin with the keyword, one of them above its annotation.
    have annotatedFrom : Digests.fromKeyword? (Utf8.encode empty.leading) (bytes "@a\nx") =
      some (bytes "@a\nx") := by decide
    have plainFrom : Digests.fromKeyword? (Utf8.encode empty.leading) (bytes "x") =
      some (bytes "x") := by decide
    have annotated : empty.digestOf (rule "x") (bytes "@a\n" ++ bytes "x") =
        .ok (some (.text (Digests.sha1Text (bytes "@a\nx")))) :=
      digestOf_eq_signedDigest emptyAsked annotatedFrom (by decide)
    have plain : empty.digestOf (rule "x") (bytes "x") =
        .ok (some (.text (Digests.sha1Text (bytes "x")))) :=
      digestOf_eq_signedDigest emptyAsked plainFrom (by decide)
    rw [annotated, plain, ne_eq, Except.ok.injEq, Option.some.injEq, Value.text.injEq]
    decide +kernel
  · have wholeFrom : Digests.fromKeyword? (Utf8.encode short.leading) (bytes "kw") =
      some (bytes "kw") := by decide
    have whole : short.digestOf (rule "k") (bytes "kw") =
        .ok (some (.text (Digests.sha1Text (bytes "k")))) :=
      digestOf_eq_signedDigest shortAsked wholeFrom (by decide)
    have cut : short.digestOf (rule "k") (bytes "k") = .ok none := rfl
    rw [whole, cut]
    simp

end Grammar

end RelayDescriptor
