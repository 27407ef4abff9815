import RelayDescriptor.Command.Run
import RelayDescriptor.Proofs.Record.Invariants

/-!
# Results of a task

When a command line asks for documents to be parsed, the response is that of the task, and its
results are those of all inputs, one input after the other.
-/

namespace RelayDescriptor

namespace Reading

open Document (hasAnnotations nextSpan? ranges rangesFrom rangesFrom_of_ended rangesFrom_of_found
  wholeRange)

variable {reading : Reading} {kind : Kind} {grammar : Grammar}

/-- The first document of a blob is the whole blob. -/
def IsWhole (reading : Reading) (keyword : Text) : Prop :=
  nextSpan? (hasAnnotations reading.blob.data) (keyword.map Ascii.byte) reading.blob.data true 0 =
    some (0, reading.blob.data.length) ∧ 0 < reading.blob.data.length

instance (reading : Reading) (keyword : Text) : Decidable (reading.IsWhole keyword) :=
  inferInstanceAs (Decidable (_ ∧ _))

theorem steps_of_isWhole
    (detected : reading.blob.detect reading.hint reading.window = .ok kind)
    (found : grammarOf kind = .ok grammar) (whole : reading.IsWhole grammar.leading) :
    reading.steps = untilInterrupted (reading.attempt grammar) [wholeRange reading.blob.data] := by
  obtain ⟨span, nonempty⟩ := whole
  have sound := Registry.isSound_of_mem_standard (grammarOf_eq_ok found).2
  have ended : rangesFrom (hasAnnotations reading.blob.data) (grammar.leading.map Ascii.byte)
      reading.blob.data false (wholeRange reading.blob.data).stop = .ok [] :=
    rangesFrom_of_ended fun inside => absurd inside (Nat.lt_irrefl _)
  apply steps_of_documents detected found
  apply Blob.documentRanges_of_isAscii sound.leading
  rw [ranges, rangesFrom_of_found (wholeRange reading.blob.data) nonempty span nonempty, ended]
  rfl

/-- A blob that is one document has one result. -/
theorem outcomes_of_isWhole
    (detected : reading.blob.detect reading.hint reading.window = .ok kind)
    (found : grammarOf kind = .ok grammar) (whole : reading.IsWhole grammar.leading)
    {outcome : Outcome}
    (attempted : reading.attempt grammar (wholeRange reading.blob.data) = .ok outcome) :
    reading.outcomes = .ok [outcome] := by
  rw [outcomes, steps_of_isWhole detected found whole, untilInterrupted, attempted]
  rfl

end Reading

namespace Run

variable {tools : Toolkit} {environment : Environment} {line : List Text} {common : CommonOptions}
  {options : ParseOptions} {level threshold : Int} {readings : List Reading}
  {results : List Outcome}

/-- A command line asks for documents to be parsed, with a verbosity and a threshold of the log. -/
structure Asks (tools : Toolkit) (environment : Environment) (line : List Text)
    (common : CommonOptions) (options : ParseOptions) (level threshold : Int) : Prop where
  request_eq : tools.request environment line = .ok (.task common (.ok (.parse options)))
  verbosity_eq : verbosity common.verbose common.quiet = .ok level
  threshold_eq : (Log.threshold? ((environment.valueOf? thresholdVariable).getD [])).map
    (Option.getD · Log.defaultThreshold) = .ok threshold

theorem respond_of_asks (asks : Asks tools environment line common options level threshold) :
    respond tools environment line =
      parse tools environment (isStyled environment common) level threshold options := by
  obtain ⟨asked, accepted, same⟩ := map_eq_ok_iff.mp asks.threshold_eq
  rw [respond, asks.request_eq]
  dsimp only
  rw [asks.verbosity_eq]
  dsimp only
  rw [accepted, ← same]
  rfl

/-- The results of all readings are those of each, one after the other. -/
theorem outcomes_eq_ok_iff : outcomes readings = .ok results ↔
    ∃ parts, List.Forall₂ (fun reading part => reading.outcomes = .ok part) readings parts ∧
      results = parts.flatten := by
  induction readings generalizing results with
  | nil => simp [outcomes, eq_comm]
  | cons reading readings induction =>
      rw [outcomes]
      constructor
      · intro complete
        split at complete
        next => cases complete
        next first found =>
          obtain ⟨rest, others, same⟩ := map_eq_ok_iff.mp complete
          obtain ⟨parts, each, rfl⟩ := induction.mp others
          exact ⟨first :: parts, .cons found each, same.symm⟩
      · rintro ⟨parts, each, rfl⟩
        cases each with
        | cons found each =>
            rw [found, induction.mpr ⟨_, each, rfl⟩]
            rfl

theorem exists_reading_of_mem (complete : outcomes readings = .ok results) {outcome : Outcome}
    (member : outcome ∈ results) :
    ∃ reading ∈ readings, ∃ part, reading.outcomes = .ok part ∧ outcome ∈ part := by
  obtain ⟨parts, each, rfl⟩ := outcomes_eq_ok_iff.mp complete
  obtain ⟨part, inside, among⟩ := List.mem_flatten.mp member
  obtain ⟨reading, read, found⟩ := exists_source_of_mapM_eq_ok (mapM_eq_ok_iff.mpr each) inside
  exact ⟨reading, read, part, found, among⟩

end Run

end RelayDescriptor
