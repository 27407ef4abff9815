import RelayDescriptor.Proofs.Reading.Openings

/-!
# Results are local to their documents

The result for a document depends on its own bytes only.  Documents that are written
back to back give the results that each of them gives alone, moved to their places,
until one of them interrupts the reading.
-/

namespace RelayDescriptor

open Document

/-- The range as much later. -/
def ByteRange.shift (offset : Nat) (range : ByteRange) : ByteRange :=
  ⟨range.start + offset, range.stop + offset, Nat.add_le_add_right range.ordered offset⟩

namespace Outcome

/-- The result for the same bytes at another range. -/
def moveTo (range : ByteRange) : Outcome → Outcome
  | .parsed document => .parsed { document with range }
  | .refused refusal => .refused { refusal with range }

/-- The result for the same bytes as much later in a blob. -/
def shift (offset : Nat) (outcome : Outcome) : Outcome :=
  outcome.moveTo (outcome.range.shift offset)

end Outcome

namespace Document

theorem getElem?_consecutive (documents : List (List UInt8)) (position index : Nat) :
    (consecutive position (documents.map List.length))[index]? =
      documents[index]?.map fun document =>
        (wholeRange document).shift (position + (documents.take index).flatten.length) := by
  induction documents generalizing position index with
  | nil => rfl
  | cons document documents induction =>
      cases index with
      | zero =>
          rw [List.map_cons, consecutive, List.getElem?_cons_zero]
          simp [wholeRange, ByteRange.shift, Nat.add_comm]
      | succ index =>
          rw [List.map_cons, consecutive, List.getElem?_cons_succ, induction,
            List.getElem?_cons_succ, List.take_succ_cons, List.flatten_cons, List.length_append,
            Nat.add_assoc]

/-- Parsing looks at a blob only through the slice at the range. -/
theorem parse_of_slice_eq {blob other : Blob} {range otherRange : ByteRange} {grammar : Grammar}
    {strict : Bool} {origin : Option Text} (same : blob.slice range = other.slice otherRange)
    (origins : blob.origin = other.origin) :
    parse blob range grammar strict origin =
      (parse other otherRange grammar strict origin).map ({ · with range }) := by
  cases valid : validated grammar strict (other.slice otherRange) with
  | error violation =>
      rw [parse_of_invalid valid, parse_of_invalid (same ▸ valid)]
      rfl
  | ok checked =>
      rw [parse_of_valid valid, parse_of_valid (same ▸ valid), same]
      cases recordOf grammar (other.slice otherRange) checked.tokens with
      | error fault => rfl
      | ok record => simp [Except.map, assembled, same, origins]

end Document

namespace Reading

/-- The same reading of other bytes. -/
def onBytes (reading : Reading) (bytes : List UInt8) : Reading :=
  { reading with blob := ⟨bytes, reading.blob.origin⟩ }

/-- The result for a document that is a blob of its own. -/
def alone (reading : Reading) (grammar : Grammar) (document : List UInt8) :
    Except Interruption Outcome :=
  (reading.onBytes document).attempt grammar (wholeRange document)

/-- A step for the same bytes as much later in a blob. -/
def shiftStep (offset : Nat) (step : Except Interruption Outcome) : Except Interruption Outcome :=
  step.map (Outcome.shift offset)

variable {reading : Reading} {grammar : Grammar} {range : ByteRange} {bytes document : List UInt8}

/-- The result for a range is the one for its bytes alone, but for its place. -/
theorem attempt_onBytes (slice : (reading.onBytes bytes).blob.slice range = document) :
    (reading.onBytes bytes).attempt grammar range =
      (reading.alone grammar document).map (Outcome.moveTo range) := by
  have whole : (reading.onBytes document).blob.slice (wholeRange document) = document :=
    slice_wholeRange (reading.onBytes document).blob
  have same := slice.trans whole.symm
  have parsing : parse (reading.onBytes bytes).blob range grammar reading.strict none = _ :=
    parse_of_slice_eq same rfl
  rw [alone, attempt, attempt, show (reading.onBytes bytes).strict = reading.strict from rfl,
    show (reading.onBytes document).strict = reading.strict from rfl, parsing, same]
  cases parse (reading.onBytes document).blob (wholeRange document) grammar reading.strict none with
  | ok parsed => rfl
  | error fault => cases fault <;> rfl

theorem attempt_onBytes_shift {offset : Nat}
    (slice : (reading.onBytes bytes).blob.slice ((wholeRange document).shift offset) = document) :
    (reading.onBytes bytes).attempt grammar ((wholeRange document).shift offset) =
      shiftStep offset (reading.alone grammar document) := by
  rw [attempt_onBytes slice, shiftStep]
  cases result : reading.alone grammar document with
  | error interruption => rfl
  | ok outcome =>
      have place := (isResultAt_of_attempt rfl result).range
      rw [Except.map, Except.map, Outcome.shift, place]

section UntilInterrupted

variable {α : Type} {read : α → Except Interruption Outcome} {items : List α} {index : Nat}

/-- Up to the first interruption, the steps are the results. -/
theorem getElem?_untilInterrupted_of_ok
    (calm : ∀ earlier ∈ items.take index, ∃ outcome, read earlier = .ok outcome) :
    (untilInterrupted read items)[index]? = items[index]?.map read := by
  induction items generalizing index with
  | nil => rfl
  | cons item items induction =>
      rw [untilInterrupted]
      cases index with
      | zero => cases result : read item <;> simp [result]
      | succ index =>
          rw [List.take_succ_cons, List.forall_mem_cons] at calm
          obtain ⟨outcome, result⟩ := calm.1
          rw [result]
          exact induction calm.2

theorem getElem?_untilInterrupted_of_error {earlier : α} {interruption : Interruption}
    (member : earlier ∈ items.take index) (failed : read earlier = .error interruption) :
    (untilInterrupted read items)[index]? = none := by
  induction items generalizing index with
  | nil => rfl
  | cons item items induction =>
      rw [untilInterrupted]
      cases index with
      | zero => cases member
      | succ index =>
          rw [List.take_succ_cons] at member
          cases result : read item with
          | error other => rfl
          | ok outcome =>
              rcases List.mem_cons.mp member with rfl | member
              · rw [result] at failed
                cases failed
              · exact induction member

theorem length_untilInterrupted_le : (untilInterrupted read items).length ≤ items.length := by
  induction items with
  | nil => exact Nat.le_refl 0
  | cons item items induction =>
      rw [untilInterrupted]
      split
      · exact Nat.succ_le_succ induction
      · exact Nat.succ_le_succ (Nat.zero_le _)

end UntilInterrupted

section BackToBack

variable {hint : Hint} {kind : Kind} {beginning : List UInt8} {documents : List (List UInt8)}
  {index : Nat}

/-- What is known of the steps for documents back to back: they are the attempts at consecutive
ranges, whose slices are the documents. -/
structure ReadsApart (reading : Reading) (grammar : Grammar) (documents : List (List UInt8))
    (ranges : List ByteRange) : Prop where
  steps : (reading.onBytes documents.flatten).steps =
    untilInterrupted ((reading.onBytes documents.flatten).attempt grammar) ranges
  slices : ranges.map (reading.onBytes documents.flatten).blob.slice = documents
  places : ∀ index, ranges[index]? = documents[index]?.map fun document =>
    (wholeRange document).shift (documents.take index).flatten.length

theorem exists_readsApart (hinted : reading.hint = some hint) (resolved : hint.resolve = .ok kind)
    (found : grammarOf kind = .ok grammar)
    (back : BackToBack (grammar.leading.map Ascii.byte) beginning documents) :
    ∃ ranges, reading.ReadsApart grammar documents ranges := by
  have leads := Registry.isLeadingKeyword_of_mem_standard (grammarOf_eq_ok found).2
  have head : grammar.leading.head? ≠ some '@' := of_decide_eq_false leads.notMark
  obtain ⟨cut, slices⟩ := Blob.documentRanges_append_flatten reading.blob.origin grammar.leading
    leads.ascii leads.noFeed head beginning [] documents isGarbage_nil back
  have detected : (reading.onBytes documents.flatten).blob.detect reading.hint reading.window =
      .ok kind := by
    rw [hinted]
    exact resolved
  refine ⟨_, steps_of_documents detected found cut, slices, ?_⟩
  intro index
  rw [getElem?_consecutive, List.length_nil, Nat.zero_add]

namespace ReadsApart

variable {ranges : List ByteRange} (apart : reading.ReadsApart grammar documents ranges)

include apart

theorem steps_length_le : (reading.onBytes documents.flatten).steps.length ≤ documents.length := by
  have same := congrArg List.length apart.slices
  rw [List.length_map] at same
  rw [apart.steps, ← same]
  exact length_untilInterrupted_le

theorem slices_take : (ranges.take index).map (reading.onBytes documents.flatten).blob.slice =
    documents.take index := by
  rw [List.map_take, apart.slices]

theorem getElem?_steps_of_ok (here : documents[index]? = some document)
    (calm : ∀ earlier ∈ documents.take index, ∃ outcome,
      reading.alone grammar earlier = .ok outcome) :
    (reading.onBytes documents.flatten).steps[index]? =
      some (shiftStep (documents.take index).flatten.length (reading.alone grammar document)) := by
  have place := apart.places index
  rw [here, Option.map_some] at place
  have slice := congrArg (·[index]?) apart.slices
  rw [List.getElem?_map, place, here] at slice
  rw [apart.steps, getElem?_untilInterrupted_of_ok, place, Option.map_some,
    attempt_onBytes_shift (Option.some.inj slice)]
  intro range member
  have among := List.mem_map_of_mem (f := (reading.onBytes documents.flatten).blob.slice) member
  rw [apart.slices_take] at among
  obtain ⟨outcome, result⟩ := calm _ among
  rw [attempt_onBytes rfl, result]
  exact ⟨_, rfl⟩

theorem getElem?_steps_of_error {earlier : List UInt8} {interruption : Interruption}
    (member : earlier ∈ documents.take index)
    (failed : reading.alone grammar earlier = .error interruption) :
    (reading.onBytes documents.flatten).steps[index]? = none := by
  rw [← apart.slices_take] at member
  obtain ⟨range, inside, slice⟩ := List.mem_map.mp member
  have stops : (reading.onBytes documents.flatten).attempt grammar range = .error interruption := by
    rw [attempt_onBytes slice, failed]
    rfl
  rw [apart.steps]
  exact getElem?_untilInterrupted_of_error inside stops

theorem calm_of_getElem?_steps {step : Except Interruption Outcome}
    (reached : (reading.onBytes documents.flatten).steps[index]? = some step) :
    ∀ earlier ∈ documents.take index, ∃ outcome, reading.alone grammar earlier = .ok outcome := by
  intro earlier member
  cases result : reading.alone grammar earlier with
  | ok outcome => exact ⟨outcome, rfl⟩
  | error interruption =>
      rw [apart.getElem?_steps_of_error member result] at reached
      cases reached

end ReadsApart

/-- Each of the documents has one step when it is read alone. -/
theorem steps_onBytes (hinted : reading.hint = some hint) (resolved : hint.resolve = .ok kind)
    (found : grammarOf kind = .ok grammar)
    (back : BackToBack (grammar.leading.map Ascii.byte) beginning documents)
    (member : document ∈ documents) :
    (reading.onBytes document).steps = [reading.alone grammar document] := by
  have single : BackToBack (grammar.leading.map Ascii.byte) beginning [document] :=
    ⟨back.form, by simpa using back.each document member, by simp, by simp⟩
  obtain ⟨ranges, apart⟩ := exists_readsApart hinted resolved found single
  have first := apart.getElem?_steps_of_ok (show [document][0]? = some document from rfl) (by simp)
  have bound := apart.steps_length_le
  have unmoved : ∀ step, shiftStep 0 step = step := by
    intro step
    cases step with
    | error interruption => rfl
    | ok outcome => cases outcome <;> rfl
  rw [List.flatten_singleton] at first bound
  cases split : (reading.onBytes document).steps with
  | nil =>
      rw [split] at first
      cases first
  | cons step others =>
      rw [split] at first bound
      obtain rfl : others = [] := List.eq_nil_of_length_eq_zero (Nat.le_zero.mp
        (Nat.le_of_succ_le_succ bound))
      exact congrArg ([·]) ((Option.some.inj first).trans (unmoved _))

end BackToBack

/-- Documents back to back give what each of them gives alone, at its place, up to the first
interruption.  So replacing a document by another one that does not interrupt only moves the
results of the others. -/
theorem steps_flatten (reading : Reading) (hint : Hint) (kind : Kind) (grammar : Grammar)
    (beginning : List UInt8) (documents : List (List UInt8)) (hinted : reading.hint = some hint)
    (resolved : hint.resolve = .ok kind) (found : grammarOf kind = .ok grammar)
    (back : BackToBack (grammar.leading.map Ascii.byte) beginning documents) :
    let single := fun document => (reading.onBytes document).steps
    let together := fun documents : List (List UInt8) => (reading.onBytes documents.flatten).steps
    let place := fun (documents : List (List UInt8)) index => (documents.take index).flatten.length
    (∀ index document, documents[index]? = some document → ∃ step, single document = [step] ∧
        ((∀ earlier ∈ documents.take index, ∃ outcome, single earlier = [.ok outcome]) →
          (together documents)[index]? = some (shiftStep (place documents index) step)) ∧
        ∀ earlier ∈ documents.take index, ∀ interruption,
          single earlier = [.error interruption] → (together documents)[index]? = none) ∧
      (together documents).length ≤ documents.length ∧
      ∀ index replaced other otherBeginning outcome, index ≠ replaced →
        BackToBack (grammar.leading.map Ascii.byte) otherBeginning
          (documents.set replaced other) →
        single other = [.ok outcome] →
          ∀ result, (together documents)[index]? = some result → ∃ step,
            result = shiftStep (place documents index) step ∧
            (together (documents.set replaced other))[index]? =
              some (shiftStep (place (documents.set replaced other) index) step) := by
  intro single together place
  obtain ⟨ranges, apart⟩ := exists_readsApart hinted resolved found back
  have singles : ∀ document ∈ documents, single document = [reading.alone grammar document] :=
    fun document => steps_onBytes hinted resolved found back
  refine ⟨?_, apart.steps_length_le, ?_⟩
  · intro index document here
    refine ⟨_, singles document (List.mem_of_getElem? here), ?_, ?_⟩
    · intro calm
      refine apart.getElem?_steps_of_ok here fun earlier member => ?_
      obtain ⟨outcome, result⟩ := calm earlier member
      rw [singles earlier (List.mem_of_mem_take member)] at result
      exact ⟨outcome, (List.cons.inj result).1⟩
    · intro earlier member interruption failed
      rw [singles earlier (List.mem_of_mem_take member)] at failed
      exact apart.getElem?_steps_of_error member (List.cons.inj failed).1
  · intro index replaced other otherBeginning outcome different otherBack calmOther result reached
    obtain ⟨otherRanges, otherApart⟩ := exists_readsApart hinted resolved found otherBack
    have calm := apart.calm_of_getElem?_steps reached
    have inside : index < documents.length :=
      Nat.lt_of_lt_of_le (List.getElem?_eq_some_iff.mp reached).1 apart.steps_length_le
    have here : documents[index]? = some documents[index] := List.getElem?_eq_getElem inside
    have moved := apart.getElem?_steps_of_ok here calm
    refine ⟨_, Option.some.inj (reached.symm.trans moved), ?_⟩
    refine otherApart.getElem?_steps_of_ok ?_ ?_
    · rw [List.getElem?_set_ne different.symm, here]
    -- The other document may stand before this one, and then it has to be calm as well.
    · intro earlier member
      have among := List.mem_of_mem_take member
      rw [List.take_set] at member
      rcases List.mem_or_eq_of_mem_set member with kept | rfl
      · exact calm earlier kept
      · have same := calmOther.symm.trans (steps_onBytes hinted resolved found otherBack among)
        exact ⟨outcome, (List.cons.inj same).1.symm⟩

theorem steps_flatten_two :
    let bytes := fun text : String => text.toList.map Ascii.byte
    let reading := Reading.of ⟨[], none⟩ (some true) (some (.known .microdescriptor)) none none
    let foreign := bytes "onion-key\nforeign\n"
    let plain := bytes "onion-key\n"
    let annotated := bytes "@a\nonion-key\nfamily b\n"
    ∃ step, (reading.onBytes annotated).steps = [step] ∧
      (reading.onBytes [foreign, annotated].flatten).steps[1]? = some (shiftStep 18 step) ∧
      ∃ moved, shiftStep 18 step = shiftStep 18 moved ∧
        (reading.onBytes [plain, annotated].flatten).steps[1]? = some (shiftStep 10 moved) := by
  intro bytes reading foreign plain annotated
  have found : grammarOf .microdescriptor = .ok _ := rfl
  have form : IsForm (bytes "onion-key") (bytes "onion-key\n") := .inr rfl
  have isForeign : IsDocument (bytes "onion-key") (bytes "onion-key\n") foreign :=
    ⟨[], bytes "onion-key\n", [bytes "foreign\n"], by decide, by decide, by decide, by decide⟩
  have isPlain : IsDocument (bytes "onion-key") (bytes "onion-key\n") plain :=
    ⟨[], bytes "onion-key\n", [], by decide, by decide, by decide, by decide⟩
  have isAnnotated : IsDocument (bytes "onion-key") (bytes "onion-key\n") annotated :=
    ⟨[bytes "@a\n"], bytes "onion-key\n", [bytes "family b\n"], by decide, by decide, by decide,
      by decide⟩
  have back : BackToBack (bytes "onion-key") (bytes "onion-key\n") [foreign, annotated] :=
    ⟨form, by simp [isForeign, isAnnotated], by decide, by simp⟩
  have otherBack : BackToBack (bytes "onion-key") (bytes "onion-key\n") [plain, annotated] :=
    ⟨form, by simp [isPlain, isAnnotated], by decide, by simp⟩
  obtain ⟨each, _, replace⟩ :=
    steps_flatten reading _ _ _ _ [foreign, annotated] rfl rfl found back
  obtain ⟨step, alone, together, _⟩ := each 1 annotated rfl
  have calm : (reading.onBytes foreign).steps = [_] :=
    steps_onBytes rfl rfl found back List.mem_cons_self
  have here := together fun earlier member => by
    obtain rfl := List.mem_singleton.mp member
    exact ⟨_, calm⟩
  have other : (reading.onBytes plain).steps = [_] :=
    steps_onBytes rfl rfl found otherBack List.mem_cons_self
  obtain ⟨moved, same, there⟩ := replace 1 0 plain _ _ (by decide) otherBack other _ here
  exact ⟨step, alone, here, moved, same, there⟩

end Reading

end RelayDescriptor
