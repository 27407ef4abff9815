import RelayDescriptor.Field.Authority
import RelayDescriptor.Proofs.Line.Blocks
import RelayDescriptor.Proofs.Reading.Steps

/-!
# Authority sections partition their lines

Sections are collected in one pass, with the current section as the only state.  The state
always says what the lines since the last naming line say; so the sections are a partition
of all lines, and the pass stops at the first line that has no section or that its section
has already.
-/

namespace RelayDescriptor

namespace AuthorityLine

variable {line earlier : AuthorityLine}

/-- A line names an authority. -/
def IsNaming (line : AuthorityLine) : Prop := ∃ source, line.content = .source source

/-- The contact that a line gives. -/
def contact? (line : AuthorityLine) : Option Text :=
  match line.content with
  | .contact text => some text
  | _ => none

/-- The digest of a vote that a line gives. -/
def voteDigest? (line : AuthorityLine) : Option Text :=
  match line.content with
  | .voteDigest digest => some digest
  | _ => none

instance : Decidable line.IsNaming :=
  match found : line.content with
  | .source source => .isTrue ⟨source, found⟩
  | .contact _ => .isFalse (by simp [IsNaming, found])
  | .voteDigest _ => .isFalse (by simp [IsNaming, found])

/-- Two lines both give a contact, or both the digest of a vote. -/
def Repeats (line earlier : AuthorityLine) : Prop :=
  (line.contact?.isSome ∧ earlier.contact?.isSome) ∨
    (line.voteDigest?.isSome ∧ earlier.voteDigest?.isSome)

instance : Decidable (line.Repeats earlier) := inferInstanceAs (Decidable (_ ∨ _))

theorem Repeats.not_isNaming (repeats : line.Repeats earlier) :
    ¬line.IsNaming ∧ ¬earlier.IsNaming := by
  constructor
  · rintro ⟨source, found⟩
    simp [Repeats, contact?, voteDigest?, found] at repeats
  · rintro ⟨source, found⟩
    simp [Repeats, contact?, voteDigest?, found] at repeats

/-- A line has no place behind others: no line names an authority before it, or since the last
such line there is one of its sort already. -/
def Offends (above : List AuthorityLine) (line : AuthorityLine) : Prop :=
  ¬line.IsNaming ∧
    ((∀ earlier ∈ above, ¬earlier.IsNaming) ∨
      ∃ before earlier between, above = before ++ earlier :: between ∧ line.Repeats earlier ∧
        ∀ other ∈ between, ¬other.IsNaming)

/-- What is reported of a line that has no place behind others. -/
def offence (above : List AuthorityLine) (line : AuthorityLine) : Violation :=
  if ∃ earlier ∈ above, earlier.IsNaming then .againForAuthority line.keyword line.line
  else .beforeAuthority line.keyword line.line

theorem cause_offence (above : List AuthorityLine) (line : AuthorityLine) :
    (line.offence above).cause =
      if ∃ earlier ∈ above, earlier.IsNaming then "duplicate-keyword" else "illegal-line" := by
  rw [offence]
  split <;> rfl

end AuthorityLine

/-- An authority as a naming line alone gives it, without what other lines are for. -/
structure DirSource.IsBare (source : DirSource) : Prop where
  contact : source.contact = none
  voteDigest : source.voteDigest = none

/-- A line that names an authority gives nothing that other lines are for. -/
def AuthorityLine.IsBare (line : AuthorityLine) : Prop :=
  ∀ source, line.content = .source source → source.IsBare

namespace DirSource

open AuthorityLine (Offends offence)

open AuthoritySection (opened extend closed)

variable {current : AuthoritySection} {source : DirSource} {line : AuthorityLine}
  {lines above below seen others : List AuthorityLine} {sources : List DirSource}
  {violation : Violation}

/-- An authority has what the lines of its section say.  The first one names it and the others do
not; at most one of these gives a contact, and at most one the digest of a vote.  What they do not
give is as the first one has it. -/
inductive IsSection : List AuthorityLine → DirSource → Prop where
  | of {naming : AuthorityLine} {others : List AuthorityLine} {named source : DirSource}
      {contact voteDigest : Option Text}
      (names : naming.content = .source named) (plain : ∀ line ∈ others, ¬line.IsNaming)
      (contacts : others.filterMap AuthorityLine.contact? = contact.toList)
      (voteDigests : others.filterMap AuthorityLine.voteDigest? = voteDigest.toList)
      (made : source = { named with
        contact := contact.or named.contact
        voteDigest := voteDigest.or named.voteDigest
        raw := (naming :: others).flatMap fun line => lineBytes line.line }) :
      IsSection (naming :: others) source

theorem IsSection.raw (holds : IsSection lines source) :
    source.raw = lines.flatMap fun line => lineBytes line.line := by
  cases holds with
  | of _ _ _ _ made => rw [made]

theorem contact?_of_source {named : DirSource} (names : line.content = .source named) :
    line.contact? = none := by
  rw [AuthorityLine.contact?, names]

theorem voteDigest?_of_source {named : DirSource} (names : line.content = .source named) :
    line.voteDigest? = none := by
  rw [AuthorityLine.voteDigest?, names]

/-- Where the naming line gives neither, contact and digest are those of the other lines or none. -/
theorem IsSection.given (holds : IsSection lines source) (bare : ∀ line ∈ lines, line.IsBare) :
    lines.filterMap AuthorityLine.contact? = source.contact.toList ∧
      lines.filterMap AuthorityLine.voteDigest? = source.voteDigest.toList := by
  cases holds with
  | of names _ contacts voteDigests made =>
      obtain ⟨noContact, noVoteDigest⟩ := bare _ List.mem_cons_self _ names
      rw [List.filterMap_cons_none (contact?_of_source names),
        List.filterMap_cons_none (voteDigest?_of_source names), contacts, voteDigests, made,
        noContact, noVoteDigest, Option.or_none, Option.or_none]
      exact ⟨rfl, rfl⟩

/-- The current section has collected what its lines say. -/
inductive Collects : List AuthorityLine → AuthoritySection → Prop where
  | of {naming : AuthorityLine} {others : List AuthorityLine} {current : AuthoritySection}
      (names : naming.content = .source current.source) (plain : ∀ line ∈ others, ¬line.IsNaming)
      (contact : others.filterMap AuthorityLine.contact? = current.contact.toList)
      (voteDigest : others.filterMap AuthorityLine.voteDigest? = current.voteDigest.toList)
      (raw : current.raw = (naming :: others).flatMap fun line => lineBytes line.line) :
      Collects (naming :: others) current

theorem collects_opened (names : line.content = .source source) :
    Collects [line] (opened source line.line) := by
  apply Collects.of names
  · simp
  · rfl
  · rfl
  · simp [opened]

theorem Collects.isSection_closed (holds : Collects seen current) :
    IsSection seen current.closed := by
  cases holds with
  | of names plain contact voteDigest raw =>
      exact .of names plain contact voteDigest (by rw [closed, raw])

theorem Collects.exists_isNaming (holds : Collects seen current) :
    ∃ earlier ∈ seen, earlier.IsNaming := by
  cases holds with
  | of names => exact ⟨_, List.mem_cons_self, _, names⟩

/-! ## One line -/

theorem exists_isSome_iff {value? : AuthorityLine → Option Text} {value : Option Text}
    (all : others.filterMap value? = value.toList) :
    (∃ earlier ∈ others, (value? earlier).isSome) ↔ value.isSome := by
  cases value with
  | none =>
      have none := List.filterMap_eq_nil_iff.mp all
      simp +contextual [none]
  | some text =>
      have member : text ∈ others.filterMap value? := by simp [all]
      obtain ⟨earlier, inside, found⟩ := List.mem_filterMap.mp member
      simp only [Option.isSome_some, iff_true]
      exact ⟨earlier, inside, by rw [found]; rfl⟩

theorem Collects.exists_repeats_iff (holds : Collects seen current) :
    (∃ earlier ∈ seen, line.Repeats earlier) ↔
      (line.contact?.isSome ∧ current.contact.isSome) ∨
        (line.voteDigest?.isSome ∧ current.voteDigest.isSome) := by
  cases holds with
  | @of naming others _ names plain contact voteDigest raw =>
      have notNaming : ¬line.Repeats naming := fun repeats => repeats.not_isNaming.2 ⟨_, names⟩
      rw [← exists_isSome_iff contact, ← exists_isSome_iff voteDigest, List.exists_mem_cons_iff,
        or_iff_right notNaming]
      constructor
      · rintro ⟨earlier, inside, repeats⟩
        exact repeats.imp (fun both => ⟨both.1, earlier, inside, both.2⟩)
          fun both => ⟨both.1, earlier, inside, both.2⟩
      · rintro (⟨gives, earlier, inside, has⟩ | ⟨gives, earlier, inside, has⟩)
        · exact ⟨earlier, inside, .inl ⟨gives, has⟩⟩
        · exact ⟨earlier, inside, .inr ⟨gives, has⟩⟩

/-- A line that its section has already is refused. -/
theorem Collects.extend_of_repeats (holds : Collects seen current)
    (repeats : ∃ earlier ∈ seen, line.Repeats earlier) :
    current.extend line = .error (.againForAuthority line.keyword line.line) := by
  have again := holds.exists_repeats_iff.mp repeats
  cases found : line.content with
  | source source => simp [AuthorityLine.contact?, AuthorityLine.voteDigest?, found] at again
  | contact text =>
      obtain ⟨before, has⟩ : ∃ before, current.contact = some before := by
        simpa [AuthorityLine.contact?, AuthorityLine.voteDigest?, found,
          Option.isSome_iff_exists] using again
      rw [extend, found, has]
  | voteDigest digest =>
      obtain ⟨before, has⟩ : ∃ before, current.voteDigest = some before := by
        simpa [AuthorityLine.contact?, AuthorityLine.voteDigest?, found,
          Option.isSome_iff_exists] using again
      rw [extend, found, has]

/-- Any other line that names no authority is taken into the section. -/
theorem Collects.exists_extend (holds : Collects seen current) (other : ¬line.IsNaming)
    (first : ¬∃ earlier ∈ seen, line.Repeats earlier) :
    ∃ next, current.extend line = .ok next ∧ Collects (seen ++ [line]) next := by
  rw [holds.exists_repeats_iff] at first
  cases holds with
  | @of naming others _ names plain contact voteDigest raw =>
      have plain : ∀ later ∈ others ++ [line], ¬later.IsNaming := by
        simpa [or_imp, forall_and] using And.intro plain other
      cases found : line.content with
      | source source => exact absurd ⟨source, found⟩ other
      | contact text =>
          have none : current.contact = none := by
            simpa [AuthorityLine.contact?, AuthorityLine.voteDigest?, found] using first
          refine ⟨{ current with contact := some text, raw := current.raw ++ lineBytes line.line },
            ?_, .of names plain ?_ ?_ ?_⟩
          · rw [extend, found, none]
          · simp [contact, none, AuthorityLine.contact?, found]
          · simp [voteDigest, AuthorityLine.voteDigest?, found]
          · simp [raw]
      | voteDigest digest =>
          have none : current.voteDigest = none := by
            simpa [AuthorityLine.contact?, AuthorityLine.voteDigest?, found] using first
          refine ⟨{ current with
            voteDigest := some digest, raw := current.raw ++ lineBytes line.line },
            ?_, .of names plain ?_ ?_ ?_⟩
          · rw [extend, found, none]
          · simp [contact, AuthorityLine.contact?, found]
          · simp [voteDigest, none, AuthorityLine.voteDigest?, found]
          · simp [raw]

/-! ## All lines -/

theorem sectionsFrom_of_isNaming (names : line.content = .source source) :
    sectionsFrom current (line :: lines) =
      (sectionsFrom (opened source line.line) lines).map (current.closed :: ·) := by
  rw [sectionsFrom, names]

theorem sectionsFrom_of_not_isNaming (other : ¬line.IsNaming) :
    sectionsFrom current (line :: lines) =
      current.extend line >>= fun next => sectionsFrom next lines := by
  rw [sectionsFrom]
  split
  next source found => exact absurd ⟨source, found⟩ other
  next => rfl

/-- The sections are made of the lines of the current section and those after them. -/
theorem Collects.exists_parts (holds : Collects seen current)
    (grouped : sectionsFrom current lines = .ok sources) :
    ∃ parts, seen ++ lines = parts.flatten ∧ List.Forall₂ IsSection parts sources := by
  induction lines generalizing seen current sources with
  | nil =>
      cases grouped
      exact ⟨[seen], by simp, .cons holds.isSection_closed .nil⟩
  | cons line lines induction =>
      by_cases naming : line.IsNaming
      · obtain ⟨source, names⟩ := naming
        rw [sectionsFrom_of_isNaming names] at grouped
        obtain ⟨later, rest, rfl⟩ := map_eq_ok_iff.mp grouped
        obtain ⟨parts, split, each⟩ := induction (collects_opened names) rest
        refine ⟨seen :: parts, ?_, .cons holds.isSection_closed each⟩
        rw [List.flatten_cons, ← split, List.singleton_append]
      · rw [sectionsFrom_of_not_isNaming naming] at grouped
        obtain ⟨next, grown, grouped⟩ := bind_eq_ok_iff.mp grouped
        have first : ¬∃ earlier ∈ seen, line.Repeats earlier := by
          intro repeats
          rw [holds.extend_of_repeats repeats] at grown
          cases grown
        obtain ⟨extended, result, grows⟩ := holds.exists_extend naming first
        cases result.symm.trans grown
        obtain ⟨parts, split, each⟩ := induction grows grouped
        exact ⟨parts, by rw [← split, List.append_assoc]; rfl, each⟩

/-! ## The first line without a place -/

/-- The report on the first of some lines that has no place behind those above it. -/
def FirstOffence (above lines : List AuthorityLine) (violation : Violation) : Prop :=
  ∃ passed line below, lines = passed ++ line :: below ∧ line.Offends (above ++ passed) ∧
    violation = line.offence (above ++ passed) ∧
      ∀ before earlier after, passed = before ++ earlier :: after →
        ¬earlier.Offends (above ++ before)

theorem not_firstOffence_nil : ¬FirstOffence above [] violation := by
  rintro ⟨passed, line, below, split, _⟩
  simp at split

theorem firstOffence_cons_of_offends (offends : line.Offends above) :
    FirstOffence above (line :: lines) violation ↔ violation = line.offence above := by
  constructor
  · rintro ⟨passed, other, below, split, _, same, earlier⟩
    cases passed with
    | nil =>
        cases split
        rw [same, List.append_nil]
    | cons first passed =>
        cases split
        exact absurd offends (by simpa using earlier [] line passed rfl)
  · rintro rfl
    exact ⟨[], line, lines, rfl, by simpa using offends, by simp, by simp⟩

theorem firstOffence_cons_of_not_offends (placed : ¬line.Offends above) :
    FirstOffence above (line :: lines) violation ↔
      FirstOffence (above ++ [line]) lines violation := by
  constructor
  · rintro ⟨passed, other, below, split, offends, same, earlier⟩
    cases passed with
    | nil =>
        cases split
        exact absurd (by simpa using offends) placed
    | cons first passed =>
        cases split
        refine ⟨passed, other, below, rfl, by simpa using offends, by simpa using same, ?_⟩
        rintro before between after rfl
        simpa using earlier (line :: before) between after rfl
  · rintro ⟨passed, other, below, rfl, offends, same, earlier⟩
    refine ⟨line :: passed, other, below, rfl, by simpa using offends, by simpa using same, ?_⟩
    intro before between after split
    cases before with
    | nil =>
        cases split
        simpa using placed
    | cons first before =>
        cases split
        simpa using earlier before between after rfl

/-- Where a section is open, only a line that it has already has no place. -/
theorem Collects.offends_iff (holds : Collects seen current) :
    line.Offends (above ++ seen) ↔ ∃ earlier ∈ seen, line.Repeats earlier := by
  have named := holds.exists_isNaming
  constructor
  · rintro ⟨_, none | ⟨before, earlier, between, split, repeats, plain⟩⟩
    · obtain ⟨earlier, inside, naming⟩ := named
      exact absurd naming (none earlier (List.mem_append_right above inside))
    · rcases List.append_eq_append_iff.mp split with ⟨rest, _, tail⟩ | ⟨rest, _, tail⟩
      · exact ⟨earlier, by simp [tail], repeats⟩
      · cases rest with
        | nil =>
            obtain rfl : earlier :: between = seen := tail
            exact ⟨earlier, List.mem_cons_self, repeats⟩
        | cons first rest =>
            obtain ⟨naming, inside, names⟩ := named
            obtain ⟨rfl, rfl⟩ := List.cons.inj tail
            exact absurd names (plain naming (List.mem_append_right rest inside))
  · rintro ⟨earlier, inside, repeats⟩
    refine ⟨repeats.not_isNaming.1, .inr ?_⟩
    cases holds with
    | @of naming others _ names plain =>
        rcases List.mem_cons.mp inside with rfl | inside
        · exact absurd ⟨_, names⟩ repeats.not_isNaming.2
        · obtain ⟨before, between, rfl⟩ := List.append_of_mem inside
          exact ⟨above ++ naming :: before, earlier, between, by simp, repeats, fun other member =>
            plain other (List.mem_append_right before (List.mem_cons_of_mem earlier member))⟩

theorem Collects.offence_eq (holds : Collects seen current) :
    line.offence (above ++ seen) = .againForAuthority line.keyword line.line := by
  obtain ⟨earlier, inside, naming⟩ := holds.exists_isNaming
  exact if_pos ⟨earlier, List.mem_append_right above inside, naming⟩

theorem not_offends_of_isNaming (naming : line.IsNaming) : ¬line.Offends above :=
  fun offends => offends.1 naming

/-- From an open section on, the pass fails as the first line without a place. -/
theorem Collects.sectionsFrom_eq_error_iff (holds : Collects seen current) :
    sectionsFrom current lines = .error violation ↔
      FirstOffence (above ++ seen) lines violation := by
  induction lines generalizing above seen current with
  | nil =>
      constructor
      · intro failed
        cases failed
      · exact fun first => absurd first not_firstOffence_nil
  | cons line lines induction =>
      by_cases naming : line.IsNaming
      · obtain ⟨source, names⟩ := naming
        rw [sectionsFrom_of_isNaming names, map_eq_error_iff, induction (collects_opened names),
          firstOffence_cons_of_not_offends (not_offends_of_isNaming ⟨source, names⟩)]
      · rw [sectionsFrom_of_not_isNaming naming]
        by_cases repeats : ∃ earlier ∈ seen, line.Repeats earlier
        · rw [holds.extend_of_repeats repeats,
            firstOffence_cons_of_offends (holds.offends_iff.mpr repeats), holds.offence_eq]
          constructor
          · rintro ⟨⟩
            rfl
          · rintro rfl
            rfl
        · obtain ⟨next, grown, grows⟩ := holds.exists_extend naming repeats
          rw [firstOffence_cons_of_not_offends (mt holds.offends_iff.mp repeats),
            List.append_assoc, ← induction grows, grown]
          rfl

theorem sections_eq_error_iff :
    sections lines = .error violation ↔ FirstOffence [] lines violation := by
  cases lines with
  | nil =>
      constructor
      · intro failed
        cases failed
      · exact fun first => absurd first not_firstOffence_nil
  | cons line lines =>
      by_cases naming : line.IsNaming
      · obtain ⟨source, names⟩ := naming
        have opening : sections (line :: lines) =
            sectionsFrom (opened source line.line) lines := by
          rw [sections, names]
        rw [opening, (collects_opened names).sectionsFrom_eq_error_iff,
          firstOffence_cons_of_not_offends (not_offends_of_isNaming ⟨source, names⟩)]
      · have offends : line.Offends [] := ⟨naming, .inl (by simp)⟩
        have failed : sections (line :: lines) =
            .error (.beforeAuthority line.keyword line.line) := by
          rw [sections]
          split
          next source found => exact absurd ⟨source, found⟩ naming
          next => rfl
        have same : line.offence [] = .beforeAuthority line.keyword line.line := by
          simp [AuthorityLine.offence]
        rw [failed, firstOffence_cons_of_offends offends, same, Except.error.injEq]
        exact eq_comm

theorem exists_firstOffence {passed : List AuthorityLine} (offends : line.Offends (above ++ passed))
    (below : List AuthorityLine) :
    ∃ violation, FirstOffence above (passed ++ line :: below) violation := by
  induction passed generalizing above with
  | nil =>
      rw [List.append_nil] at offends
      exact ⟨_, (firstOffence_cons_of_offends offends).mpr rfl⟩
  | cons first passed induction =>
      rw [List.cons_append]
      by_cases sooner : first.Offends above
      · exact ⟨_, (firstOffence_cons_of_offends sooner).mpr rfl⟩
      · have later : line.Offends ((above ++ [first]) ++ passed) := by simpa using offends
        obtain ⟨violation, found⟩ := induction later
        exact ⟨violation, (firstOffence_cons_of_not_offends sooner).mpr found⟩

/-- Lines that sections can be made of: there is none or the first one names an authority, and
between two lines of one sort there is a naming line. -/
structure IsSound (lines : List AuthorityLine) : Prop where
  begins : ∀ first, lines.head? = some first → first.IsNaming
  apart : ∀ before earlier between line after,
    lines = before ++ earlier :: (between ++ line :: after) → line.Repeats earlier →
      ∃ other ∈ between, other.IsNaming

theorem isSound_iff :
    IsSound lines ↔ ∀ above line below, lines = above ++ line :: below → ¬line.Offends above := by
  constructor
  · rintro ⟨begins, apart⟩ above line below rfl ⟨other, none | again⟩
    · cases above with
      | nil => exact other (begins line rfl)
      | cons first above => exact none first List.mem_cons_self (begins first rfl)
    · obtain ⟨before, earlier, between, rfl, repeats, plain⟩ := again
      obtain ⟨naming, inside, names⟩ := apart before earlier between line below (by simp) repeats
      exact plain naming inside names
  · intro placed
    constructor
    · intro first head
      obtain ⟨rest, rfl⟩ := List.head?_eq_some_iff.mp head
      by_contra other
      exact placed [] first rest rfl ⟨other, .inl (by simp)⟩
    · intro before earlier between line after split repeats
      by_contra none
      have plain : ∀ other ∈ between, ¬other.IsNaming :=
        fun other inside names => none ⟨other, inside, names⟩
      exact placed (before ++ earlier :: between) line after (by simp [split])
        ⟨repeats.not_isNaming.1, .inr ⟨before, earlier, between, rfl, repeats, plain⟩⟩

theorem exists_sections_iff : (∃ sources, sections lines = .ok sources) ↔ IsSound lines := by
  rw [isSound_iff]
  constructor
  · rintro ⟨sources, grouped⟩ above line below rfl offends
    have here : line.Offends ([] ++ above) := offends
    obtain ⟨violation, first⟩ := exists_firstOffence here below
    rw [sections_eq_error_iff.mpr first] at grouped
    cases grouped
  · intro placed
    cases result : sections lines with
    | ok sources => exact ⟨sources, rfl⟩
    | error violation =>
        obtain ⟨above, line, below, split, offends, _⟩ := sections_eq_error_iff.mp result
        exact absurd offends (placed above line below split)

/-- The sections partition the lines. -/
theorem exists_parts_of_sections (grouped : sections lines = .ok sources) :
    ∃ parts, lines = parts.flatten ∧ List.Forall₂ IsSection parts sources := by
  cases lines with
  | nil =>
      cases grouped
      exact ⟨[], rfl, .nil⟩
  | cons line lines =>
      rw [sections] at grouped
      split at grouped
      next source names => exact (collects_opened names).exists_parts grouped
      next => cases grouped

theorem encode_written (lines : List AuthorityLine) :
    Utf8.encode (written (lines.map AuthorityLine.line)) =
      lines.flatMap fun line => lineBytes line.line := by
  simp [Utf8.encode, written, lineBytes, List.flatMap_assoc, List.flatMap_map]

/-- The sections hold the bytes of all lines. -/
theorem flatMap_raw {parts : List (List AuthorityLine)}
    (each : List.Forall₂ IsSection parts sources) :
    sources.flatMap DirSource.raw =
      Utf8.encode (written (parts.flatten.map AuthorityLine.line)) := by
  rw [encode_written]
  induction each with
  | nil => rfl
  | cons holds _ induction =>
      rw [List.flatMap_cons, List.flatten_cons, List.flatMap_append, holds.raw, induction]

end DirSource

end RelayDescriptor
