import RelayDescriptor.Proofs.Reading.Certificate
import RelayDescriptor.Reading

/-!
# Results for all documents

Reading a blob gives one result for each document, whatever is wrong with any of
them, and the results stand for the parts of the blob that were cut off.  The only
way out is a numeral with too many digits in a document that reaches it.
-/

namespace RelayDescriptor

namespace Reading

variable {reading : Reading} {kind : Kind} {grammar : Grammar} {range : ByteRange}
  {ranges : List ByteRange} {version : Text}

/-- A result that stands for a part of a blob. -/
structure IsResultAt (blob : Blob) (expected : Kind) (part : ByteRange) (outcome : Outcome) :
    Prop where
  kind : outcome.kind? = some expected
  range : outcome.range = part
  raw : outcome.raw = blob.slice part
  origin : outcome.origin? = blob.origin

/-- The results that there should be for a blob. -/
inductive Covers (reading : Reading) : List Outcome → Prop where
  | unknown {rejection : Rejection}
      (undetected : reading.blob.detect reading.hint reading.window = .error rejection) :
      Covers reading [.refused (reading.refusal none rejection)]
  | unsupported {kind : Kind} {rejection : Rejection}
      (detected : reading.blob.detect reading.hint reading.window = .ok kind)
      (missing : grammarOf kind = .error rejection) :
      Covers reading [.refused (reading.refusal (some kind) rejection)]
  | documents {kind : Kind} {grammar : Grammar} {ranges : List ByteRange}
      {results : List Outcome}
      (detected : reading.blob.detect reading.hint reading.window = .ok kind)
      (found : grammarOf kind = .ok grammar)
      (cut : reading.blob.documentRanges grammar.leading = .ok ranges)
      (each : List.Forall₂ (IsResultAt reading.blob kind) ranges results) :
      Covers reading results

/-- Some document reaches a numeral with too many digits. -/
def Escapes (reading : Reading) (count : Nat) : Prop :=
  ∃ kind grammar ranges range,
    reading.blob.detect reading.hint reading.window = .ok kind ∧ grammarOf kind = .ok grammar ∧
      reading.blob.documentRanges grammar.leading = .ok ranges ∧ range ∈ ranges ∧
      grammar.ReachesOverlong reading.strict (reading.blob.slice range) count

theorem grammarOf_eq_ok (found : grammarOf kind = .ok grammar) :
    grammar.kind = kind ∧ grammar ∈ Registry.standard := by
  rw [grammarOf] at found
  split at found
  next other same =>
    cases found
    have kinds := List.find?_some same
    exact ⟨of_decide_eq_true kinds, List.mem_of_find?_eq_some same⟩
  next => cases found

theorem mapM_untilInterrupted (read : α → Except Interruption Outcome) (items : List α) :
    (untilInterrupted read items).mapM id = items.mapM read := by
  induction items with
  | nil => rfl
  | cons item items induction =>
      rw [untilInterrupted, List.mapM_cons, ← induction]
      cases read item with
      | error interruption => rfl
      | ok outcome => rw [List.mapM_cons]; rfl

theorem isResultAt_of_attempt {outcome : Outcome} (kinds : grammar.kind = kind)
    (result : reading.attempt grammar range = .ok outcome) :
    IsResultAt reading.blob kind range outcome := by
  rw [attempt] at result
  split at result
  next document parsed =>
    cases result
    obtain ⟨checked, record, rfl⟩ := Document.eq_assembled_of_parse parsed
    exact ⟨congrArg some kinds, rfl, rfl, rfl⟩
  next rejection _ =>
    cases result
    exact ⟨congrArg some kinds, rfl, rfl, rfl⟩
  next => cases result

theorem attempt_eq_error_iff (sound : grammar.IsSound) {interruption : Interruption} :
    reading.attempt grammar range = .error interruption ↔
      ∃ count, interruption = .digitLimit count ∧
        grammar.ReachesOverlong reading.strict (reading.blob.slice range) count := by
  have interrupts := @Document.parse_eq_interrupted grammar reading.strict reading.blob range none
    sound interruption
  rw [← interrupts, attempt]
  split
  next document parsed => simp [parsed]
  next rejection parsed => simp [parsed]
  next other parsed => simp [parsed]

/-- The built-in leading keywords are ASCII, so that the search for documents always ends. -/
theorem exists_documentRanges (sound : grammar.IsSound) (blob : Blob) :
    ∃ ranges, blob.documentRanges grammar.leading = .ok ranges := by
  have inner := Document.lineFeed_not_mem_of_text sound.leading sound.leadingLine
  obtain ⟨ranges, cut, _⟩ := Document.ranges_wellPlaced inner blob.data
  exact ⟨ranges, Blob.documentRanges_of_isAscii sound.leading blob cut⟩

theorem steps_of_undetected {rejection : Rejection}
    (undetected : reading.blob.detect reading.hint reading.window = .error rejection) :
    reading.steps = [.ok (.refused (reading.refusal none rejection))] := by
  simp only [steps, plan, undetected]

theorem steps_of_unsupported {rejection : Rejection}
    (detected : reading.blob.detect reading.hint reading.window = .ok kind)
    (missing : grammarOf kind = .error rejection) :
    reading.steps = [.ok (.refused (reading.refusal (some kind) rejection))] := by
  simp only [steps, plan, detected, missing]

theorem steps_of_documents
    (detected : reading.blob.detect reading.hint reading.window = .ok kind)
    (found : grammarOf kind = .ok grammar)
    (cut : reading.blob.documentRanges grammar.leading = .ok ranges) :
    reading.steps = untilInterrupted (reading.attempt grammar) ranges := by
  simp only [steps, plan, detected, found, cut]

theorem outcomes_of_undetected {rejection : Rejection}
    (undetected : reading.blob.detect reading.hint reading.window = .error rejection) :
    reading.outcomes = .ok [.refused (reading.refusal none rejection)] := by
  rw [outcomes, steps_of_undetected undetected]
  rfl

theorem outcomes_of_unsupported {rejection : Rejection}
    (detected : reading.blob.detect reading.hint reading.window = .ok kind)
    (missing : grammarOf kind = .error rejection) :
    reading.outcomes = .ok [.refused (reading.refusal (some kind) rejection)] := by
  rw [outcomes, steps_of_unsupported detected missing]
  rfl

theorem outcomes_of_documents
    (detected : reading.blob.detect reading.hint reading.window = .ok kind)
    (found : grammarOf kind = .ok grammar)
    (cut : reading.blob.documentRanges grammar.leading = .ok ranges) :
    reading.outcomes = ranges.mapM (reading.attempt grammar) := by
  rw [outcomes, steps_of_documents detected found cut]
  exact mapM_untilInterrupted _ ranges

/-- A reading has all results that there should be, or it ends early for the one reason. -/
theorem outcomes_cases (reading : Reading) :
    (∃ results, reading.outcomes = .ok results ∧ reading.Covers results) ∨
      ∃ count, reading.outcomes = .error (.digitLimit count) ∧ reading.Escapes count := by
  cases detected : reading.blob.detect reading.hint reading.window with
  | error rejection => exact .inl ⟨_, outcomes_of_undetected detected, .unknown detected⟩
  | ok kind =>
      cases found : grammarOf kind with
      | error rejection =>
          exact .inl ⟨_, outcomes_of_unsupported detected found, .unsupported detected found⟩
      | ok grammar =>
          obtain ⟨kinds, member⟩ := grammarOf_eq_ok found
          have sound := Registry.isSound_of_mem_standard member
          obtain ⟨ranges, cut⟩ := exists_documentRanges sound reading.blob
          rw [outcomes_of_documents detected found cut]
          cases ended : ranges.mapM (reading.attempt grammar) with
          | ok results =>
              have each := (mapM_eq_ok_iff.mp ended).imp fun _ _ result =>
                isResultAt_of_attempt kinds result
              exact .inl ⟨results, rfl, .documents detected found cut each⟩
          | error interruption =>
              obtain ⟨range, inside, failed⟩ := exists_of_mapM_eq_error ended
              obtain ⟨count, rfl, reaches⟩ := (attempt_eq_error_iff sound).mp failed
              exact .inr ⟨count, rfl, kind, grammar, ranges, range, detected, found, cut, inside,
                reaches⟩

theorem not_escapes_of_outcomes {results : List Outcome} {count : Nat}
    (complete : reading.outcomes = .ok results) : ¬reading.Escapes count := by
  rintro ⟨kind, grammar, ranges, range, detected, found, cut, member, reaches⟩
  have sound := Registry.isSound_of_mem_standard (grammarOf_eq_ok found).2
  have failed := (attempt_eq_error_iff sound).mpr ⟨count, rfl, reaches⟩
  rw [outcomes_of_documents detected found cut] at complete
  obtain ⟨outcome, result⟩ := exists_of_mapM_eq_ok complete member
  rw [failed] at result
  cases result

/-- The digits of the numeral stand in the blob. -/
theorem hasRun_of_escapes {count : Nat} (escapes : reading.Escapes count) :
    Numeral.digitLimit < count ∧ HasRun Utf8.isDigitByte count reading.blob.data := by
  obtain ⟨kind, grammar, ranges, range, _, found, _, _, reaches⟩ := escapes
  have sound := Registry.isSound_of_mem_standard (grammarOf_eq_ok found).2
  obtain ⟨many, run⟩ := Document.hasRun_of_reachesOverlong sound reaches
  have within : reading.blob.slice range <:+: reading.blob.data :=
    (List.take_prefix _ _).isInfix.trans (List.drop_suffix _ _).isInfix
  exact ⟨many, run.of_within within⟩

/-- Reading a key certificate does not get past a version with too many digits. -/
theorem outcomes_bareText (detected : reading.blob.detect reading.hint reading.window =
      .ok .keyCertificate)
    (data : reading.blob.data = (KeyCertificate.bareText version).map Ascii.byte)
    (unsigned : Numeral.isUnsigned version = true) (many : Numeral.digitLimit < version.length) :
    reading.outcomes = .error (.digitLimit version.length) := by
  have registered : ∃ grammar ∈ KeyCertificate.grammars,
      grammarOf .keyCertificate = .ok grammar ∧ grammar.leading = KeyCertificate.versionKeyword :=
    ⟨_, List.mem_cons_self, rfl, rfl⟩
  obtain ⟨grammar, member, found, leading⟩ := registered
  have sound := Registry.isSound_of_mem_standard (grammarOf_eq_ok found).2
  have cut : reading.blob.documentRanges grammar.leading =
      .ok [⟨0, reading.blob.data.length, Nat.zero_le _⟩] := by
    rw [leading, KeyCertificate.documentRanges_bareText unsigned data]
  have whole : reading.blob.slice ⟨0, reading.blob.data.length, Nat.zero_le _⟩ =
      (KeyCertificate.bareText version).map Ascii.byte := by
    rw [← data]
    exact List.take_length
  have reaches := KeyCertificate.reachesOverlong_bareText member reading.strict unsigned many
  rw [← whole] at reaches
  have failed := (attempt_eq_error_iff sound).mpr ⟨version.length, rfl, reaches⟩
  rw [outcomes_of_documents detected found cut, List.mapM_cons, failed]
  rfl

/-- A blob is read to its end, with one result for each document, exactly if no document reaches
a numeral with too many digits, which would have to stand in the blob. -/
theorem outcomes_covers (blob : Blob) (strict : Option Bool) (hint : Option Hint)
    (origin : Option Text) (settings : Option Settings) :
    let reading := Reading.of blob strict hint origin settings
    ((∃ results, reading.outcomes = .ok results ∧ reading.Covers results) ↔
        ∀ count, ¬reading.Escapes count) ∧
      (∀ interruption, reading.outcomes = .error interruption →
        ∃ count, interruption = .digitLimit count ∧ reading.Escapes count) ∧
      ∀ count, reading.Escapes count →
        Numeral.digitLimit < count ∧ HasRun Utf8.isDigitByte count blob.data := by
  intro reading
  refine ⟨⟨?_, ?_⟩, ?_, fun _ => hasRun_of_escapes⟩
  · rintro ⟨results, complete, _⟩ count
    exact not_escapes_of_outcomes complete
  · intro calm
    apply reading.outcomes_cases.resolve_right
    rintro ⟨count, _, escapes⟩
    exact calm count escapes
  · intro interruption ended
    rcases reading.outcomes_cases with ⟨results, complete, _⟩ | ⟨count, interrupted, escapes⟩
    · rw [complete] at ended
      cases ended
    · rw [interrupted] at ended
      cases ended
      exact ⟨count, rfl, escapes⟩

theorem outcomes_covers_two :
    let blob : Blob := ⟨"extra-info a\nextra-info b\n".toList.map Ascii.byte, none⟩
    let reading := Reading.of blob none none none none
    ∃ results, reading.outcomes = .ok results ∧ reading.Covers results := by
  intro blob
  obtain ⟨complete, _, stands⟩ := outcomes_covers blob none none none none
  refine complete.mpr ?_
  intro count escapes
  obtain ⟨many, run⟩ := stands count escapes
  have short : blob.data.length < Numeral.digitLimit := by decide
  exact absurd run.length_le (Nat.not_le.mpr (Nat.lt_trans short many))

theorem outcomes_bareText_4301 :
    (Reading.of ⟨(KeyCertificate.bareText (List.replicate 4301 '1')).map Ascii.byte, none⟩ none
      (some (.named "dir-key-certificate-3".toList)) none none).outcomes =
        .error (.digitLimit 4301) := by
  have unsigned : Numeral.isUnsigned (List.replicate 4301 '1') = true := by
    rw [Numeral.isUnsigned, List.all_replicate]
    rfl
  have size : (List.replicate 4301 '1').length = 4301 := List.length_replicate
  have many : Numeral.digitLimit < (List.replicate 4301 '1').length := by
    rw [size]
    decide
  rw [outcomes_bareText ?_ rfl unsigned many, size]
  rfl

end Reading

end RelayDescriptor
