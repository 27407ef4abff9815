import RelayDescriptor.Proofs.Ranges.Placement

/-!
# Documents back to back

Documents that are written back to back are found again, one range for each, also
behind bytes that belong to none.  Each search has to land on the line where the next
document begins.  Of annotations this needs that, from the second document on, those
without any come last, and of keyword lines that all have the same form.
-/

namespace RelayDescriptor

namespace Document

variable {annotated : Bool} {keyword beginning bytes garbage document : List UInt8} {position : Nat}
  {documents : List (List UInt8)} {first opening : List UInt8}
  {above annotations body below : List (List UInt8)}

/-- The two forms of keyword lines. -/
def IsForm (keyword beginning : List UInt8) : Prop :=
  beginning = spaced keyword ∨ beginning = bare keyword

/-- A document is annotations, then a keyword line with a given beginning, then lines that are
neither. -/
def IsDocument (keyword beginning document : List UInt8) : Prop :=
  ∃ annotations opening body, byteLines document = annotations ++ opening :: body ∧
    (∀ line ∈ annotations, isAnnotationLine line = true) ∧ beginning <+: opening ∧
    ∀ line ∈ body, isAnnotationLine line = false ∧ opensWith keyword line = false

/-- Whether a document begins with an annotation. -/
def isAnnotated (document : List UInt8) : Bool := document.head? = some atSign

/-- Bytes that belong to no document, nor to the annotations of a document behind them. -/
structure IsGarbage (keyword garbage : List UInt8) : Prop where
  closed : IsClosed garbage
  noKeywordLine : ∀ line ∈ byteLines garbage, opensWith keyword line = false
  lastLine : ∀ line, (byteLines garbage).getLast? = some line → isAnnotationLine line = false

/-- Documents that may be written back to back. -/
structure BackToBack (keyword beginning : List UInt8) (documents : List (List UInt8)) : Prop where
  form : IsForm keyword beginning
  each : ∀ document ∈ documents, IsDocument keyword beginning document
  terminated : ∀ document ∈ documents.dropLast, document.getLast? = some lineFeed
  annotatedFirst : documents.tail.Pairwise fun earlier later =>
    isAnnotated later = true → isAnnotated earlier = true

/-- The ranges of given sizes that follow each other from a position on. -/
def consecutive (position : Nat) : List Nat → List ByteRange
  | [] => []
  | size :: sizes =>
      ⟨position, position + size, Nat.le_add_right position size⟩ ::
        consecutive (position + size) sizes

theorem IsForm.ne_nil (form : IsForm keyword beginning) : beginning ≠ [] := by
  rcases form with rfl | rfl
  · simp [spaced]
  · simp [bare]

theorem IsForm.inner (form : IsForm keyword beginning) (inner : lineFeed ∉ keyword) :
    lineFeed ∉ beginning.dropLast := by
  rcases form with rfl | rfl
  · rwa [spaced, List.dropLast_concat]
  · rwa [bare, List.dropLast_concat]

theorem IsForm.opensWith_of_prefix (form : IsForm keyword beginning)
    (occurs : beginning <+: bytes) :
    opensWith keyword bytes = true := by
  rw [opensWith_iff_beginning]
  rcases form with rfl | rfl
  · exact .inl occurs
  · exact .inr occurs

/-- A line has only one of the two forms. -/
theorem not_bare_of_spaced (withSpace : spaced keyword <+: bytes) : ¬bare keyword <+: bytes := by
  intro alone
  have same : spaced keyword <+: bare keyword :=
    List.prefix_of_prefix_length_le withSpace alone (by simp [spaced, bare])
  have equal : spaced keyword = bare keyword := same.eq_of_length (by simp [spaced, bare])
  have separators := (List.append_inj_right' equal rfl)
  exact absurd separators (by decide)

/-- Where all keyword lines have the same form, the next one is found by this form. -/
theorem nextDocument?_eq_nextLine? (form : IsForm keyword beginning) (inner : lineFeed ∉ keyword)
    (split : byteLines bytes = first :: below)
    (uniform : ∀ line ∈ below, opensWith keyword line = true → beginning <+: line) :
    nextDocument? keyword bytes = nextLine? beginning bytes := by
  have spacedInner : lineFeed ∉ (spaced keyword).dropLast := IsForm.inner (.inl rfl) inner
  have bareInner : lineFeed ∉ (bare keyword).dropLast := IsForm.inner (.inr rfl) inner
  rcases form with rfl | rfl
  · have alone : nextLine? (bare keyword) bytes = none := by
      refine nextLine?_eq_none_of_byteLines (IsForm.ne_nil (.inr rfl)) bareInner split ?_
      intro line member occurs
      have other := uniform line member (IsForm.opensWith_of_prefix (.inr rfl) occurs)
      exact not_bare_of_spaced other occurs
    rw [nextDocument?, alone, Option.or_none]
  · have withSpace : nextLine? (spaced keyword) bytes = none := by
      refine nextLine?_eq_none_of_byteLines (IsForm.ne_nil (.inl rfl)) spacedInner split ?_
      intro line member occurs
      have other := uniform line member (IsForm.opensWith_of_prefix (.inl rfl) occurs)
      exact not_bare_of_spaced occurs other
    rw [nextDocument?, withSpace, Option.none_or]

/-- Lines without the keyword are passed over on the way to a document. -/
theorem opening?_of_byteLines (form : IsForm keyword beginning) (inner : lineFeed ∉ keyword)
    (split : byteLines bytes = above ++ opening :: below)
    (passed : ∀ line ∈ above, opensWith keyword line = false) (opens : beginning <+: opening)
    (uniform : ∀ line ∈ below, opensWith keyword line = true → beginning <+: line) :
    opening? keyword bytes = some above.flatten.length := by
  cases above with
  | nil =>
      have joined := flatten_byteLines bytes
      rw [split, List.nil_append, List.flatten_cons] at joined
      have occurs : beginning <+: bytes := joined ▸ opens.trans (List.prefix_append opening _)
      rw [opening?, if_pos (form.opensWith_of_prefix occurs)]
      rfl
  | cons first skipped =>
      have closed : ¬opensWith keyword bytes = true := by
        have head : byteLines bytes = [] ++ first :: (skipped ++ opening :: below) := split
        rw [opensWith_iff]
        intro line
        have opensFirst := (keywordLineAt_iff inner head).mp line
        rw [passed first List.mem_cons_self] at opensFirst
        cases opensFirst
      rw [opening?, if_neg closed, nextDocument?_eq_nextLine? form inner split]
      · refine nextLine?_of_byteLines form.ne_nil (form.inner inner) split ?_ opens
        intro other member occurs
        have open_ := form.opensWith_of_prefix occurs
        rw [passed other (List.mem_cons_of_mem first member)] at open_
        cases open_
      · intro line member opensLine
        rcases List.mem_append.mp member with skippedLine | member
        · rw [passed line (List.mem_cons_of_mem first skippedLine)] at opensLine
          cases opensLine
        · rcases List.mem_cons.mp member with rfl | member
          · exact opens
          · exact uniform line member opensLine

/-- The lines that may come after a document. -/
def IsContinuation (annotated : Bool) (beginning : List UInt8) (below : List (List UInt8)) : Prop :=
  ∀ first others, below = first :: others →
    (annotated = true ∧ isAnnotationLine first = true) ∨
      (beginning <+: first ∧ ∀ line ∈ below, isAnnotationLine line = false)

theorem extent_of_byteLines (form : IsForm keyword beginning) (inner : lineFeed ∉ keyword)
    (split : byteLines bytes = opening :: body ++ below)
    (within : ∀ line ∈ body, isAnnotationLine line = false ∧ opensWith keyword line = false)
    (uniform : ∀ line ∈ below, opensWith keyword line = true → beginning <+: line)
    (continues : IsContinuation annotated beginning below) :
    extent annotated keyword bytes = (opening :: body).flatten.length := by
  have atInner : lineFeed ∉ [atSign].dropLast := List.not_mem_nil
  have atNonempty : [atSign] ≠ [] := List.cons_ne_nil _ _
  have noMark : ∀ line ∈ body, ¬[atSign] <+: line := by
    intro line member occurs
    rw [← isAnnotationLine_iff, (within line member).1] at occurs
    cases occurs
  have noKeyword : ∀ line ∈ body, ¬beginning <+: line := by
    intro line member occurs
    have opens := form.opensWith_of_prefix occurs
    rw [(within line member).2] at opens
    cases opens
  have next : nextDocument? keyword bytes = nextLine? beginning bytes := by
    refine nextDocument?_eq_nextLine? form inner split ?_
    intro line member opens
    rcases List.mem_append.mp member with inBody | ahead
    · rw [(within line inBody).2] at opens
      cases opens
    · exact uniform line ahead opens
  cases below with
  | nil =>
      rw [List.append_nil] at split
      have noLine := nextLine?_eq_none_of_byteLines atNonempty atInner split noMark
      have noDocument :=
        nextLine?_eq_none_of_byteLines form.ne_nil (form.inner inner) split noKeyword
      rw [extent, noLine, next, noDocument, ite_self, ← split, flatten_byteLines]
      rfl
  | cons first others =>
      rcases continues first others rfl with ⟨rfl, marked⟩ | ⟨opens, plain⟩
      · have found := nextLine?_of_byteLines atNonempty atInner split noMark
          (isAnnotationLine_iff.mp marked)
        rw [extent, found]
        rfl
      · have noLine : nextLine? [atSign] bytes = none := by
          refine nextLine?_eq_none_of_byteLines atNonempty atInner split ?_
          intro line member occurs
          rcases List.mem_append.mp member with inBody | ahead
          · exact noMark line inBody occurs
          · rw [← isAnnotationLine_iff, plain line ahead] at occurs
            cases occurs
        have found :=
          nextLine?_of_byteLines form.ne_nil (form.inner inner) split noKeyword opens
        rw [extent, noLine, next, found, ite_self]
        rfl

theorem isAnnotated_eq (split : byteLines document = first :: below) :
    isAnnotated document = isAnnotationLine first := by
  have size : 0 < first.length := length_pos_of_mem_byteLines (split ▸ List.mem_cons_self)
  rw [isAnnotated, isAnnotationLine, ← flatten_byteLines document, split, List.flatten_cons]
  cases first with
  | nil => cases size
  | cons b first => rfl

theorem isAnnotationLine_of_form (head : keyword.head? ≠ some atSign)
    (form : IsForm keyword beginning) (occurs : beginning <+: opening) :
    isAnnotationLine opening = false := by
  have single : [space].head? ≠ some atSign ∧ [lineFeed].head? ≠ some atSign := by decide
  obtain ⟨rest, rfl⟩ := occurs
  rw [isAnnotationLine, decide_eq_false_iff_not]
  cases keyword with
  | nil =>
      rcases form with rfl | rfl
      · exact single.1
      · exact single.2
  | cons b keyword =>
      rcases form with rfl | rfl
      · exact head
      · exact head

theorem not_opensWith_of_isAnnotationLine (head : keyword.head? ≠ some atSign)
    (marked : isAnnotationLine first = true) : opensWith keyword first = false := by
  rw [Bool.eq_false_iff]
  intro opens
  rcases opensWith_iff_beginning.mp opens with withSpace | alone
  · rw [isAnnotationLine_of_form head (.inl rfl) withSpace] at marked
    cases marked
  · rw [isAnnotationLine_of_form head (.inr rfl) alone] at marked
    cases marked

/-- The documents that are still ahead in a later round. -/
structure Ahead (annotated : Bool) (keyword beginning : List UInt8)
    (documents : List (List UInt8)) : Prop where
  each : ∀ document ∈ documents, IsDocument keyword beginning document
  terminated : ∀ document ∈ documents.dropLast, document.getLast? = some lineFeed
  annotatedFirst : documents.Pairwise fun earlier later =>
    isAnnotated later = true → isAnnotated earlier = true
  marked : ∀ document ∈ documents, isAnnotated document = true → annotated = true

theorem mem_dropLast_cons {later : List UInt8} (member : later ∈ documents.dropLast) :
    later ∈ (document :: documents).dropLast := by
  cases documents with
  | nil => cases member
  | cons next documents => exact List.mem_cons_of_mem document member

theorem Ahead.tail (ahead : Ahead annotated keyword beginning (document :: documents)) :
    Ahead annotated keyword beginning documents where
  each := fun later member => ahead.each later (List.mem_cons_of_mem document member)
  terminated := fun later member => ahead.terminated later (mem_dropLast_cons member)
  annotatedFirst := (List.pairwise_cons.mp ahead.annotatedFirst).2
  marked := fun later member => ahead.marked later (List.mem_cons_of_mem document member)

theorem byteLines_flatten_cons
    (terminated : ∀ earlier ∈ (document :: documents).dropLast, earlier.getLast? = some lineFeed) :
    byteLines (document :: documents).flatten =
      byteLines document ++ byteLines documents.flatten := by
  cases documents with
  | nil => simp [byteLines]
  | cons next documents =>
      exact byteLines_append (.inr (terminated document List.mem_cons_self)) _

theorem mem_byteLines_flatten {line : List UInt8}
    (terminated : ∀ document ∈ documents.dropLast, document.getLast? = some lineFeed) :
    line ∈ byteLines documents.flatten ↔ ∃ document ∈ documents, line ∈ byteLines document := by
  induction documents with
  | nil => simp [byteLines]
  | cons document documents induction =>
      have rest : ∀ later ∈ documents.dropLast, later.getLast? = some lineFeed :=
        fun later member => terminated later (mem_dropLast_cons member)
      rw [byteLines_flatten_cons terminated, List.mem_append, induction rest]
      simp

theorem Ahead.uniform (ahead : Ahead annotated keyword beginning documents)
    (head : keyword.head? ≠ some atSign) :
    ∀ line ∈ byteLines documents.flatten, opensWith keyword line = true → beginning <+: line := by
  intro line member opens
  obtain ⟨document, among, within⟩ := (mem_byteLines_flatten ahead.terminated).mp member
  obtain ⟨annotations, opening, body, split, marks, occurs, others⟩ := ahead.each document among
  rw [split] at within
  rcases List.mem_append.mp within with mark | within
  · rw [not_opensWith_of_isAnnotationLine head (marks line mark)] at opens
    cases opens
  · rcases List.mem_cons.mp within with rfl | inBody
    · exact occurs
    · rw [(others line inBody).2] at opens
      cases opens

theorem IsDocument.exists_line (isDocument : IsDocument keyword beginning document) :
    ∃ line rest, byteLines document = line :: rest := by
  obtain ⟨annotations, opening, body, split, _⟩ := isDocument
  cases annotations with
  | nil => exact ⟨opening, body, split⟩
  | cons mark annotations => exact ⟨mark, annotations ++ opening :: body, split⟩

/-- A document without annotations begins with its keyword line and holds no annotation line. -/
theorem IsDocument.plain (form : IsForm keyword beginning) (head : keyword.head? ≠ some atSign)
    (isDocument : IsDocument keyword beginning document) (bare : isAnnotated document = false) :
    (∃ opening body, byteLines document = opening :: body ∧ beginning <+: opening) ∧
      ∀ line ∈ byteLines document, isAnnotationLine line = false := by
  obtain ⟨annotations, opening, body, split, marks, occurs, others⟩ := isDocument
  cases annotations with
  | nil =>
      refine ⟨⟨opening, body, split, occurs⟩, ?_⟩
      intro line member
      rw [split] at member
      rcases List.mem_cons.mp member with rfl | inBody
      · exact isAnnotationLine_of_form head form occurs
      · exact (others line inBody).1
  | cons mark annotations =>
      rw [isAnnotated_eq split, marks mark List.mem_cons_self] at bare
      cases bare

/-- What follows a document either begins with an annotation, or holds none at all. -/
theorem Ahead.isContinuation (ahead : Ahead annotated keyword beginning documents)
    (form : IsForm keyword beginning) (head : keyword.head? ≠ some atSign) :
    IsContinuation annotated beginning (byteLines documents.flatten) := by
  intro first others split
  cases documents with
  | nil => cases split
  | cons document documents =>
      have joined := byteLines_flatten_cons ahead.terminated
      cases marked : isAnnotated document with
      | true =>
          obtain ⟨line, rest, lines⟩ := (ahead.each document List.mem_cons_self).exists_line
          rw [joined, lines] at split
          obtain ⟨rfl, _⟩ := List.cons.inj split
          rw [isAnnotated_eq lines] at marked
          exact .inl ⟨ahead.marked document List.mem_cons_self
            (isAnnotated_eq lines ▸ marked), marked⟩
      | false =>
          have never : ∀ later ∈ document :: documents, isAnnotated later = false := by
            intro later member
            rcases List.mem_cons.mp member with rfl | member
            · exact marked
            · have earlier := (List.pairwise_cons.mp ahead.annotatedFirst).1 later member
              rw [marked] at earlier
              exact Bool.eq_false_iff.mpr fun marked => by cases earlier marked
          obtain ⟨⟨opening, body, lines, occurs⟩, _⟩ :=
            (ahead.each document List.mem_cons_self).plain form head marked
          refine .inr ⟨?_, ?_⟩
          · rw [joined, lines] at split
            obtain ⟨rfl, _⟩ := List.cons.inj split
            exact occurs
          · intro line member
            obtain ⟨later, among, within⟩ := (mem_byteLines_flatten ahead.terminated).mp member
            have plain := (ahead.each later among).plain form head (never later among)
            exact plain.2 line within

/-- A round that passes over some garbage finds the document behind it. -/
theorem round_of_document (form : IsForm keyword beginning) (inner : lineFeed ∉ keyword)
    (head : keyword.head? ≠ some atSign) (skipped : IsGarbage keyword garbage)
    (isDocument : IsDocument keyword beginning document)
    (terminated : ∀ earlier ∈ (document :: documents).dropLast, earlier.getLast? = some lineFeed)
    (ahead : Ahead annotated keyword beginning documents)
    (joined : bytes = garbage ++ (document :: documents).flatten) :
    ∃ count, opening? keyword bytes = some (garbage.length + count) ∧
      count + extent annotated keyword (bytes.drop (garbage.length + count)) = document.length ∧
      blockStart bytes (garbage.length + count) = garbage.length := by
  obtain ⟨annotations, opening, body, split, marks, occurs, others⟩ := isDocument
  have lines : byteLines bytes = (byteLines garbage ++ annotations) ++
      opening :: (body ++ byteLines documents.flatten) := by
    rw [joined, byteLines_append skipped.closed, byteLines_flatten_cons terminated, split]
    simp
  have uniform := ahead.uniform head
  have place : (byteLines garbage ++ annotations).flatten.length =
      garbage.length + annotations.flatten.length := by
    rw [List.flatten_append, List.length_append, flatten_byteLines]
  refine ⟨annotations.flatten.length, ?_, ?_, ?_⟩
  · rw [← place]
    refine opening?_of_byteLines form inner lines ?_ occurs ?_
    · intro line member
      rcases List.mem_append.mp member with inGarbage | mark
      · exact skipped.noKeywordLine line inGarbage
      · exact not_opensWith_of_isAnnotationLine head (marks line mark)
    · intro line member opens
      rcases List.mem_append.mp member with inBody | later
      · rw [(others line inBody).2] at opens
        cases opens
      · exact uniform line later opens
  · rw [← place, extent_of_byteLines form inner (byteLines_drop lines) others uniform
      (ahead.isContinuation form head), ← List.length_append, ← List.flatten_append, ← split,
      flatten_byteLines]
  · have aligned := isLineStart_of_byteLines lines
    rw [← place, blockStart_of_byteLines lines marks skipped.lastLine rfl aligned,
      flatten_byteLines]

theorem isGarbage_nil : IsGarbage keyword [] where
  closed := .inl rfl
  noKeywordLine := by simp [byteLines]
  lastLine := by simp [byteLines]

theorem drop_of_drop_eq_append (joined : bytes.drop position = document ++ below.flatten) :
    bytes.drop (position + document.length) = below.flatten := by
  rw [← List.drop_drop, joined, List.drop_left]

theorem IsDocument.length_pos (isDocument : IsDocument keyword beginning document) :
    0 < document.length := by
  obtain ⟨line, rest, split⟩ := isDocument.exists_line
  have size : 0 < line.length := length_pos_of_mem_byteLines (split ▸ List.mem_cons_self)
  rw [← flatten_byteLines document, split, List.flatten_cons, List.length_append]
  exact Nat.add_pos_left size _

theorem lt_length_of_drop_eq (garbage : List UInt8)
    (isDocument : IsDocument keyword beginning document)
    (joined : bytes.drop position = garbage ++ (document :: documents).flatten) :
    position < bytes.length := by
  have size := congrArg List.length joined
  have positive := isDocument.length_pos
  rw [List.length_drop, List.length_append, List.flatten_cons, List.length_append] at size
  omega

/-- The later rounds cut off the documents that are still ahead. -/
theorem rangesFrom_of_documents (form : IsForm keyword beginning) (inner : lineFeed ∉ keyword)
    (head : keyword.head? ≠ some atSign) (ahead : Ahead annotated keyword beginning documents)
    (joined : bytes.drop position = documents.flatten) :
    rangesFrom annotated keyword bytes false position =
      .ok (consecutive position (documents.map List.length)) := by
  induction documents generalizing position with
  | nil =>
      have behind := List.drop_eq_nil_iff.mp joined
      exact rangesFrom_of_ended fun inside => absurd inside (Nat.not_lt.mpr behind)
  | cons document documents induction =>
      have isDocument := ahead.each document List.mem_cons_self
      have inside : position < bytes.length := lt_length_of_drop_eq [] isDocument joined
      obtain ⟨count, found, size, _⟩ := round_of_document form inner head isGarbage_nil isDocument
        ahead.terminated ahead.tail joined
      rw [List.length_nil, Nat.zero_add] at found size
      rw [List.drop_drop] at size
      let range : ByteRange :=
        ⟨position, position + document.length, Nat.le_add_right position document.length⟩
      have span : nextSpan? annotated keyword bytes false position =
          some (range.start, range.stop) := by
        simp [nextSpan?, found, range, ← size, Nat.add_assoc]
      have advances : range.start < range.stop := Nat.lt_add_of_pos_right isDocument.length_pos
      rw [rangesFrom_of_found range inside span advances,
        induction ahead.tail (drop_of_drop_eq_append joined)]
      rfl

theorem hasAnnotations_of_mem {line : List UInt8} (member : line ∈ byteLines bytes)
    (marked : isAnnotationLine line = true) : hasAnnotations bytes = true := by
  obtain ⟨above, below, split⟩ := List.append_of_mem member
  exact hasAnnotations_iff.mpr ⟨_, (annotationAt_iff split).mpr marked⟩

/-- The flag for annotations is set if a document behind the first has any. -/
theorem BackToBack.ahead (skipped : IsGarbage keyword garbage)
    (back : BackToBack keyword beginning (document :: documents)) :
    Ahead (hasAnnotations (garbage ++ (document :: documents).flatten)) keyword beginning
      documents where
  each := fun later member => back.each later (List.mem_cons_of_mem document member)
  terminated := fun later member => back.terminated later (mem_dropLast_cons member)
  annotatedFirst := back.annotatedFirst
  marked := by
    intro later member marked
    have among : later ∈ document :: documents := List.mem_cons_of_mem document member
    obtain ⟨line, rest, split⟩ := (back.each later among).exists_line
    have within : line ∈ byteLines later := split ▸ List.mem_cons_self
    have inBlob : line ∈ byteLines (garbage ++ (document :: documents).flatten) := by
      rw [byteLines_append skipped.closed, List.mem_append,
        mem_byteLines_flatten back.terminated]
      exact .inr ⟨later, among, within⟩
    exact hasAnnotations_of_mem inBlob (isAnnotated_eq split ▸ marked)

theorem opening?_eq_none_of_byteLines (inner : lineFeed ∉ keyword)
    (passed : ∀ line ∈ byteLines bytes, opensWith keyword line = false) :
    opening? keyword bytes = none := by
  rw [opening?_eq_none_iff]
  intro later found
  have inside : later < bytes.length := by
    have header := found.header_le_length
    omega
  obtain ⟨above, line, below, split, rfl⟩ := exists_line_of_isLineStart found.aligned inside
  have opens := (keywordLineAt_iff inner split).mp found
  rw [passed line (by simp [split])] at opens
  cases opens

/-- All rounds together: the first passes over the garbage. -/
theorem ranges_append_flatten (inner : lineFeed ∉ keyword) (head : keyword.head? ≠ some atSign)
    (skipped : IsGarbage keyword garbage) (back : BackToBack keyword beginning documents) :
    ranges keyword (garbage ++ documents.flatten) =
      .ok (consecutive garbage.length (documents.map List.length)) := by
  cases documents with
  | nil =>
      have absent := opening?_eq_none_of_byteLines inner skipped.noKeywordLine
      rw [List.flatten_nil, List.append_nil, ranges]
      exact rangesFrom_of_ended fun _ => by simp [nextSpan?, absent]
  | cons document documents =>
      have isDocument := back.each document List.mem_cons_self
      have ahead := back.ahead skipped
      generalize joined : garbage ++ (document :: documents).flatten = bytes at ahead ⊢
      obtain ⟨count, found, size, block⟩ := round_of_document back.form inner head skipped
        isDocument back.terminated ahead joined.symm
      have inside : 0 < bytes.length :=
        lt_length_of_drop_eq garbage isDocument joined.symm
      let range : ByteRange := ⟨garbage.length, garbage.length + document.length,
        Nat.le_add_right garbage.length document.length⟩
      have span : nextSpan? (hasAnnotations bytes) keyword bytes true 0 =
          some (range.start, range.stop) := by
        simp [nextSpan?, found, range, ← size, block, Nat.add_assoc]
      have advances : range.start < range.stop := Nat.lt_add_of_pos_right isDocument.length_pos
      have rest : bytes.drop range.stop = documents.flatten := by
        rw [← joined]
        simp [range]
      rw [ranges, rangesFrom_of_found range inside span advances,
        rangesFrom_of_documents back.form inner head ahead rest]
      rfl

end Document

namespace Blob

open Document

/-- Consecutive ranges of the sizes of documents cut out the documents. -/
theorem map_slice_consecutive (blob : Blob) {documents : List (List UInt8)} {position : Nat}
    (joined : blob.data.drop position = documents.flatten) :
    (consecutive position (documents.map List.length)).map blob.slice = documents := by
  induction documents generalizing position with
  | nil => rfl
  | cons document documents induction =>
      have here : blob.slice ⟨position, position + document.length, Nat.le_add_right _ _⟩ =
          document := by
        rw [slice, joined, ByteRange.size, Nat.add_sub_cancel_left, List.flatten_cons,
          List.take_left]
      have others := induction (drop_of_drop_eq_append joined)
      simp only [List.map_cons, consecutive, here, others]

/-- Splitting undoes concatenation. -/
theorem documentRanges_append_flatten (origin : Option Text) (keyword : Text)
    (ascii : ∀ c ∈ keyword, Ascii.isAscii c = true) (inner : '\n' ∉ keyword)
    (head : keyword.head? ≠ some '@') (beginning garbage : List UInt8)
    (documents : List (List UInt8)) (skipped : IsGarbage (keyword.map Ascii.byte) garbage)
    (back : BackToBack (keyword.map Ascii.byte) beginning documents) :
    let blob : Blob := ⟨garbage ++ documents.flatten, origin⟩
    let found := consecutive garbage.length (documents.map List.length)
    blob.documentRanges keyword = .ok found ∧ found.map blob.slice = documents := by
  have byteHead : (keyword.map Ascii.byte).head? ≠ some atSign := by
    cases keyword with
    | nil => simp
    | cons c keyword =>
        intro same
        have single : Ascii.isAscii '@' = true := by decide
        have equal : c = '@' :=
          Ascii.byte_injective (ascii c List.mem_cons_self) single (Option.some.inj same)
        exact head (congrArg some equal)
  have cut := ranges_append_flatten (lineFeed_not_mem_of_text ascii inner) byteHead skipped back
  refine ⟨documentRanges_of_isAscii ascii _ cut, map_slice_consecutive _ ?_⟩
  exact List.drop_left

theorem documentRanges_append_flatten_two :
    let bytes := fun text : String => text.toList.map Ascii.byte
    let documents := [bytes "@a\nkw x\nb\n", bytes "@b\nkw y"]
    let blob : Blob := ⟨bytes "g\n" ++ documents.flatten, none⟩
    let found := consecutive 2 (documents.map List.length)
    blob.documentRanges "kw".toList = .ok found ∧ found.map blob.slice = documents := by
  let bytes := fun text : String => text.toList.map Ascii.byte
  refine documentRanges_append_flatten none "kw".toList (List.all_eq_true.mp (by decide))
    (by decide) (by decide)
    (bytes "kw ") (bytes "g\n") [bytes "@a\nkw x\nb\n", bytes "@b\nkw y"]
    ⟨.inr (by decide), by decide, ?_⟩ ⟨.inl (by decide), ?_, by decide, by decide⟩
  · rintro line ⟨⟩
    decide
  · intro document member
    rcases List.mem_cons.mp member with rfl | member
    · exact ⟨[bytes "@a\n"], bytes "kw x\n", [bytes "b\n"], by decide, by decide, by decide,
        by decide⟩
    · obtain rfl := List.mem_singleton.mp member
      exact ⟨[bytes "@b\n"], bytes "kw y", [], by decide, by decide, by decide, by decide⟩

end Blob

end RelayDescriptor
