import RelayDescriptor.Keyword.Validation
import RelayDescriptor.Proofs.Keyword.Occurrences
import RelayDescriptor.Proofs.OrderedMap
import RelayDescriptor.Proofs.Text.Sorted

/-!
# One pass over the lines

Validation looks at each line once and carries along a tally.  After any number of lines the tally
says what is to be extracted from just these lines, and in strict reading the pass ends at the
first line that is not recognized.  So the pass comes to the verdict on the lines as a whole.
-/

namespace RelayDescriptor

namespace OrderedMap

variable {κ α : Type} [DecidableEq κ]

/-- Writing a key of a map that is given by a function changes the function at that key. -/
theorem insert_map_of_mem {key : κ} {list : List κ} {f g : κ → α} (distinct : list.Nodup)
    (member : key ∈ list) (same : ∀ other, other ≠ key → g other = f other) :
    insert key (g key) (list.map fun k => (k, f k)) = list.map fun k => (k, g k) := by
  induction list with
  | nil => cases member
  | cons head tail induction =>
      obtain ⟨absent, distinct⟩ := List.nodup_cons.mp distinct
      rw [List.map_cons, List.map_cons, insert]
      by_cases here : head = key
      · subst here
        have others : tail.map (fun k => (k, f k)) = tail.map fun k => (k, g k) := by
          apply List.map_congr_left
          intro other inside
          rw [same other (ne_of_mem_of_not_mem inside absent)]
        rw [if_pos rfl, others]
      · rw [if_neg here, same head here,
          induction distinct ((List.mem_cons.mp member).resolve_left (Ne.symm here))]

end OrderedMap

/-! ## Counts of keywords -/

section Counts

variable {tokens : List Token} {token : Token} {keyword : Text}

theorem mem_keys_keywordCounts :
    keyword ∈ OrderedMap.keys (keywordCounts tokens) ↔ 0 < occurrences keyword tokens := by
  rw [OrderedMap.keys, keywordCounts, List.map_map, occurrences_pos_iff]
  simp

theorem nodup_keys_keywordCounts (tokens : List Token) :
    (OrderedMap.keys (keywordCounts tokens)).Nodup := by
  have keys : OrderedMap.keys (keywordCounts tokens) =
      (tokens.map Token.keyword).eraseDups := by
    rw [OrderedMap.keys, keywordCounts, List.map_map]
    exact List.map_id _
  rw [keys]
  exact nodup_eraseDups _

theorem mem_keywordCounts {count : Nat} :
    (keyword, count) ∈ keywordCounts tokens ↔ 0 < count ∧ count = occurrences keyword tokens := by
  rw [keywordCounts]
  simp only [List.mem_map, List.mem_eraseDups, Prod.mk.injEq]
  constructor
  · rintro ⟨_, ⟨token, member, rfl⟩, rfl, rfl⟩
    exact ⟨occurrences_pos_iff.mpr ⟨token, member, rfl⟩, rfl⟩
  · rintro ⟨positive, rfl⟩
    obtain ⟨token, member, same⟩ := occurrences_pos_iff.mp positive
    exact ⟨keyword, ⟨token, member, same⟩, rfl, rfl⟩

/-- A keyword that is not among the counts does not occur. -/
theorem find?_keywordCounts (keyword : Text) (tokens : List Token) :
    (OrderedMap.find? keyword (keywordCounts tokens)).getD 0 = occurrences keyword tokens := by
  rcases Nat.eq_zero_or_pos (occurrences keyword tokens) with never | occurs
  · have absent : keyword ∉ OrderedMap.keys (keywordCounts tokens) := by
      rw [mem_keys_keywordCounts, never]
      exact Nat.lt_irrefl 0
    rw [OrderedMap.find?_eq_none_iff.mpr absent, never]
    rfl
  · rw [OrderedMap.find?_of_mem (nodup_keys_keywordCounts tokens)
      (mem_keywordCounts.mpr ⟨occurs, rfl⟩)]
    rfl

theorem occurrences_concat (keyword : Text) (tokens : List Token) (token : Token) :
    occurrences keyword (tokens ++ [token]) =
      occurrences keyword tokens + if token.keyword = keyword then 1 else 0 := by
  simp [occurrences, List.countP_append, List.countP_singleton]

/-- One more line adds one to the count of its keyword, which stands at the end if it is new. -/
theorem keywordCounts_concat (tokens : List Token) (token : Token) :
    keywordCounts (tokens ++ [token]) =
      OrderedMap.insert token.keyword (occurrences token.keyword tokens + 1)
        (keywordCounts tokens) := by
  have one : occurrences token.keyword tokens + 1 =
      occurrences token.keyword (tokens ++ [token]) := by
    rw [occurrences_concat, if_pos rfl]
  have others : ∀ other, other ≠ token.keyword →
      occurrences other (tokens ++ [token]) = occurrences other tokens := by
    intro other different
    rw [occurrences_concat, if_neg (Ne.symm different), Nat.add_zero]
  rw [one, keywordCounts, keywordCounts, List.map_append, List.map_singleton]
  by_cases seen : token.keyword ∈ tokens.map Token.keyword
  · rw [eraseDups_concat_of_mem seen]
    exact (OrderedMap.insert_map_of_mem (nodup_eraseDups _) (List.mem_eraseDups.mpr seen)
      others).symm
  · have absent : token.keyword ∉ OrderedMap.keys (keywordCounts tokens) := by
      rw [mem_keys_keywordCounts, occurrences_pos_iff]
      rintro ⟨other, member, same⟩
      exact seen (same ▸ List.mem_map_of_mem member)
    rw [← keywordCounts.eq_def tokens, OrderedMap.insert_of_not_mem absent, keywordCounts,
      eraseDups_concat_of_not_mem seen, List.map_append]
    congr 1
    apply List.map_congr_left
    intro other member
    have before : other ≠ token.keyword :=
      ne_of_mem_of_not_mem (List.mem_eraseDups.mp member) seen
    rw [others other before]

end Counts

namespace LineRules

variable {rules : LineRules} {seen items : List Item} {item : Item} {tally : Tally}

/-! ## The tally -/

/-- A tally says what is to be extracted from the lines that have been looked at. -/
def Tallies (rules : LineRules) (seen : List Item) (tally : Tally) : Prop :=
  tally.validated = rules.extract seen

theorem tallies_empty (rules : LineRules) : rules.Tallies [] .empty := by
  rw [Tallies, extract, kept]
  cases rules.cap with
  | none => rfl
  | some cap => exact congrArg (Validated.mk [] []) List.take_nil.symm

theorem Tallies.tokens (tallies : rules.Tallies seen tally) :
    tally.tokens.toList = seen.filterMap rules.recognize? := congrArg Validated.tokens tallies

theorem Tallies.counts (tallies : rules.Tallies seen tally) :
    tally.counts = keywordCounts (seen.filterMap rules.recognize?) :=
  congrArg Validated.counts tallies

theorem Tallies.unrecognized (tallies : rules.Tallies seen tally) :
    tally.unrecognized.toList = rules.kept (rules.unrecognizedLines seen) :=
  congrArg Validated.unrecognized tallies

theorem Tallies.count (tallies : rules.Tallies seen tally) :
    tally.count = (occurrences · (seen.filterMap rules.recognize?)) := by
  funext keyword
  rw [Tally.count, tallies.counts, find?_keywordCounts]

theorem unrecognizedLines_concat (rules : LineRules) (seen : List Item) (item : Item) :
    rules.unrecognizedLines (seen ++ [item]) = rules.unrecognizedLines seen ++
      if (rules.recognize? item).isNone then [item.line] else [] := by
  rw [unrecognizedLines, unrecognizedLines, List.filter_append, List.map_append]
  cases found : rules.recognize? item <;> simp [found]

/-- One more line is kept exactly if fewer lines than allowed are kept so far. -/
theorem kept_concat (tallies : rules.Tallies seen tally) (line : Text) :
    rules.kept (rules.unrecognizedLines seen ++ [line]) =
      rules.kept (rules.unrecognizedLines seen) ++ if rules.hasRoom tally then [line] else [] := by
  have size : tally.unrecognized.size = (rules.kept (rules.unrecognizedLines seen)).length := by
    rw [← tallies.unrecognized, Array.length_toList]
  cases capped : rules.cap with
  | none => simp [kept, hasRoom, capped]
  | some cap =>
      simp only [kept, capped, hasRoom, size, List.length_take, decide_eq_true_eq]
      rw [List.take_append]
      split
      next room =>
        have one : [line].length ≤ cap.toNat - (rules.unrecognizedLines seen).length := by
          rw [List.length_singleton]
          omega
        rw [List.take_of_length_le one]
      next full =>
        have none : cap.toNat - (rules.unrecognizedLines seen).length = 0 := by omega
        rw [none, List.take_zero]

theorem Tallies.withToken (tallies : rules.Tallies seen tally) {token : Token}
    (found : rules.recognize? item = some token) :
    rules.Tallies (seen ++ [item]) (tally.withToken token) := by
  have tokens : (seen ++ [item]).filterMap rules.recognize? =
      seen.filterMap rules.recognize? ++ [token] := by
    simp [List.filterMap_append, found]
  have lines : rules.unrecognizedLines (seen ++ [item]) = rules.unrecognizedLines seen := by
    rw [unrecognizedLines_concat, found]
    exact List.append_nil _
  rw [Tallies, extract, tokens, keywordCounts_concat, lines]
  simp only [Tally.validated, Tally.withToken, Array.toList_push, tallies.tokens, tallies.count,
    tallies.counts, tallies.unrecognized]

theorem Tallies.withoutToken (tallies : rules.Tallies seen tally)
    (foreign : rules.recognize? item = none) :
    rules.Tallies (seen ++ [item])
      (if rules.hasRoom tally then tally.withLine item.line else tally) := by
  have tokens : (seen ++ [item]).filterMap rules.recognize? =
      seen.filterMap rules.recognize? := by
    simp [List.filterMap_append, foreign]
  have lines : rules.unrecognizedLines (seen ++ [item]) =
      rules.unrecognizedLines seen ++ [item.line] := by
    rw [unrecognizedLines_concat, foreign]
    rfl
  rw [Tallies, extract, tokens, lines, kept_concat tallies]
  split
  next => simp only [Tally.validated, Tally.withLine, Array.toList_push, tallies.tokens,
    tallies.counts, tallies.unrecognized]
  next => simp only [Tally.validated, tallies.tokens, tallies.counts, tallies.unrecognized,
    List.append_nil]

/-! ## The pass -/

/-- A line is looked at: the tally is kept up, unless reading is strict and the line is not
recognized. -/
theorem look_spec (tallies : rules.Tallies seen tally) (item : Item) :
    (rules.strict = true ∧ rules.recognize? item = none ∧
      rules.look tally item = .error (.unrecognized item.keyword? item.line)) ∨
    (rules.strict = true → (rules.recognize? item).isSome = true) ∧
      ∃ later, rules.look tally item = .ok later ∧ rules.Tallies (seen ++ [item]) later := by
  rw [look]
  cases found : rules.recognize? item with
  | some token => exact .inr ⟨fun _ => rfl, _, rfl, tallies.withToken found⟩
  | none =>
      by_cases strict : rules.strict = true
      · exact .inl ⟨strict, rfl, if_pos strict⟩
      · refine .inr ⟨fun isStrict => absurd isStrict strict, _, ?_, tallies.withoutToken found⟩
        dsimp only
        rw [if_neg strict]
        split <;> rfl

theorem strictViolation?_cons (rules : LineRules) (item : Item) (items : List Item) :
    rules.strictViolation? (item :: items) =
      if rules.strict = true ∧ rules.recognize? item = none then
        some (.unrecognized item.keyword? item.line)
      else rules.strictViolation? items := by
  rw [strictViolation?, strictViolation?, firstUnrecognized?, firstUnrecognized?,
    List.find?_cons]
  by_cases strict : rules.strict = true
  · cases rules.recognize? item <;> simp [strict]
  · simp [strict]

/-- All lines are looked at one after the other: the tally says what is to be extracted from all of
them, unless one of them ends the pass. -/
theorem foldlM_look (tallies : rules.Tallies seen tally) (items : List Item) :
    match rules.strictViolation? items with
    | some violation => items.foldlM rules.look tally = .error violation
    | none => ∃ later, items.foldlM rules.look tally = .ok later ∧
        rules.Tallies (seen ++ items) later := by
  -- The induction is on the lines that are left; those passed by are in the tally.
  induction items generalizing seen tally with
  | nil =>
      have silent : rules.strictViolation? [] = none := by
        rw [strictViolation?]
        split <;> rfl
      rw [silent, List.append_nil]
      exact ⟨tally, rfl, tallies⟩
  | cons item items induction =>
      rw [strictViolation?_cons, List.foldlM_cons]
      rcases look_spec tallies item with ⟨strict, foreign, ended⟩ | ⟨known, later, looked, tallies⟩
      · rw [if_pos ⟨strict, foreign⟩, ended]
        rfl
      · have goesOn : ¬(rules.strict = true ∧ rules.recognize? item = none) := by
          rintro ⟨strict, foreign⟩
          have some := known strict
          rw [foreign] at some
          cases some
        have rest := induction tallies
        rw [List.append_assoc, List.singleton_append] at rest
        rw [if_neg goesOn, looked]
        exact rest

/-- The pass comes to the verdict on the lines. -/
theorem validate_eq_verdict (rules : LineRules) (items : List Item) :
    rules.validate items = rules.verdict items := by
  rw [validate, verdict, violation?]
  cases rules.leadingViolation? items with
  | some violation => rfl
  | none =>
      have pass := foldlM_look (tallies_empty rules) items
      cases ended : rules.strictViolation? items with
      | some violation =>
          rw [ended] at pass
          simp only [pass]
          rfl
      | none =>
          rw [ended] at pass
          obtain ⟨tally, complete, tallies⟩ := pass
          simp only [complete]
          rw [List.nil_append] at tallies
          simp only [Option.none_or]
          show (match rules.constraints.violation? tally.count with
            | some violation => Except.error violation
            | none => pure tally.validated) = _
          rw [tallies.count, tallies]
          rfl

theorem validate_eq_ok_iff {validated : Validated} :
    rules.validate items = .ok validated ↔
      rules.violation? items = none ∧ rules.extract items = validated := by
  rw [validate_eq_verdict, verdict]
  cases rules.violation? items <;> simp

theorem validate_eq_error_iff {violation : Violation} :
    rules.validate items = .error violation ↔ rules.violation? items = some violation := by
  rw [validate_eq_verdict, verdict]
  cases rules.violation? items <;> simp

end LineRules

end RelayDescriptor
