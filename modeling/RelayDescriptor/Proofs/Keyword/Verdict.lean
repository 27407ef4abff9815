import RelayDescriptor.Proofs.Keyword.Pass

/-!
# The verdict on the lines of a document

The rules on lines are described without an order in which they are checked: each may be
broken, in a way that is a violation.  Lines are valid if they break no rule.  Rules are
then put into an order, and of all rules that are broken the first one is reported.
-/

namespace RelayDescriptor

/-- A rule that the lines of a document may break. -/
inductive LineRule where
  /-- The first line has the leading keyword. -/
  | opening
  /-- The line at a position is recognized. -/
  | line (index : Nat)
  | exactlyOnce (keyword : Text)
  | atMostOnce (keyword : Text)
  | dependency (keyword needed : Text)
  deriving DecidableEq

namespace LineRule

variable {rule other : LineRule}

/-- Rules of one sort belong together. -/
def stage : LineRule → Nat
  | .opening => 0
  | .line _ => 1
  | .exactlyOnce _ => 2
  | .atMostOnce _ => 3
  | .dependency _ _ => 4

theorem stage_eq_zero_iff : rule.stage = 0 ↔ rule = .opening := by
  cases rule <;> simp [stage]

theorem stage_eq_one_iff : rule.stage = 1 ↔ ∃ index, rule = .line index := by
  cases rule <;> simp [stage]

theorem stage_eq_two_iff : rule.stage = 2 ↔ ∃ keyword, rule = .exactlyOnce keyword := by
  cases rule <;> simp [stage]

theorem stage_eq_three_iff : rule.stage = 3 ↔ ∃ keyword, rule = .atMostOnce keyword := by
  cases rule <;> simp [stage]

theorem stage_eq_four_iff :
    rule.stage = 4 ↔ ∃ entry : Text × Text, rule = .dependency entry.1 entry.2 := by
  cases rule <;> simp [stage]

theorem stage_lt_five (rule : LineRule) : rule.stage < 5 := by
  cases rule <;> simp [stage]

/-- The order of the rules: by their sort, then from the top of the document to its end, or by the
alphabetical order of keywords. -/
inductive Before : LineRule → LineRule → Prop where
  | stage {rule other : LineRule} (less : rule.stage < other.stage) : Before rule other
  | line {index later : Nat} (less : index < later) : Before (.line index) (.line later)
  | exactlyOnce {keyword other : Text} (less : keyword < other) :
      Before (.exactlyOnce keyword) (.exactlyOnce other)
  | atMostOnce {keyword other : Text} (less : keyword < other) :
      Before (.atMostOnce keyword) (.atMostOnce other)
  | dependency {keyword needed other otherNeeded : Text} (less : keyword < other) :
      Before (.dependency keyword needed) (.dependency other otherNeeded)

theorem Before.stage_le (before : rule.Before other) : rule.stage ≤ other.stage := by
  cases before with
  | stage less => exact Nat.le_of_lt less
  | line | exactlyOnce | atMostOnce | dependency => exact Nat.le_refl _

theorem Before.asymm (before : rule.Before other) : ¬other.Before rule := by
  intro after
  cases before with
  | stage less => exact absurd after.stage_le (Nat.not_le_of_lt less)
  | line less =>
      cases after with
      | stage greater => exact absurd greater (Nat.lt_irrefl _)
      | line greater => exact Nat.lt_asymm less greater
  | exactlyOnce less =>
      cases after with
      | stage greater => exact absurd greater (Nat.lt_irrefl _)
      | exactlyOnce greater => exact lt_asymm less greater
  | atMostOnce less =>
      cases after with
      | stage greater => exact absurd greater (Nat.lt_irrefl _)
      | atMostOnce greater => exact lt_asymm less greater
  | dependency less =>
      cases after with
      | stage greater => exact absurd greater (Nat.lt_irrefl _)
      | dependency greater => exact lt_asymm less greater

end LineRule

namespace Constraints

/-- The keywords of constraints are in order and no keyword needs two others. -/
structure Arranged (constraints : Constraints) : Prop where
  exactlyOnce : constraints.exactlyOnce.Pairwise (· < ·)
  atMostOnce : constraints.atMostOnce.Pairwise (· < ·)
  dependsOn : (OrderedMap.keys constraints.dependsOn).Nodup

theorem arranged_of (exactlyOnce atMostOnce : List Text) (dependsOn : List (Text × Text)) :
    (of exactlyOnce atMostOnce (OrderedMap.ofList dependsOn)).Arranged where
  exactlyOnce := Text.sortedSet_ascending exactlyOnce
  atMostOnce := Text.sortedSet_ascending atMostOnce
  dependsOn := OrderedMap.nodup_keys_ofList dependsOn

theorem keys_insertDependency (entry : Text × Text) (entries : List (Text × Text)) :
    OrderedMap.keys (insertDependency entry entries) =
      Text.insertSorted entry.1 (OrderedMap.keys entries) := by
  induction entries with
  | nil => rfl
  | cons head tail induction =>
      rw [insertDependency, OrderedMap.keys, OrderedMap.keys, List.map_cons, Text.insertSorted]
      split
      · rfl
      · exact congrArg (head.1 :: ·) induction

theorem keys_sortedDependencies (constraints : Constraints) :
    OrderedMap.keys constraints.sortedDependencies =
      Text.sorted (OrderedMap.keys constraints.dependsOn) := by
  rw [sortedDependencies]
  induction constraints.dependsOn with
  | nil => rfl
  | cons head tail induction =>
      rw [List.foldr_cons, keys_insertDependency, induction]
      rfl

theorem Arranged.sortedDependencies {constraints : Constraints} (arranged : constraints.Arranged) :
    constraints.sortedDependencies.Pairwise fun entry later => entry.1 < later.1 := by
  have keys := Text.sorted_ascending arranged.dependsOn
  rw [← keys_sortedDependencies, OrderedMap.keys, List.pairwise_map] at keys
  exact keys

end Constraints

namespace LineRules

variable {rules : LineRules} {items : List Item} {item : Item} {token : Token} {keyword : Text}
  {violation : Violation}

/-- A line has a keyword that may occur. -/
def Recognizes (rules : LineRules) (item : Item) : Prop :=
  ∃ token, item = .token token ∧ token.keyword ∈ rules.recognized

theorem recognize?_eq_some_iff :
    rules.recognize? item = some token ↔
      item = .token token ∧ token.keyword ∈ rules.recognized := by
  cases item with
  | blank line => simp [recognize?, Item.token?]
  | token other =>
      simp only [recognize?, Item.token?, Option.filter_eq_some_iff, Option.some.injEq,
        List.contains_iff_mem, Item.token.injEq]

instance (rules : LineRules) (item : Item) : Decidable (rules.Recognizes item) :=
  decidable_of_iff ((rules.recognize? item).isSome = true)
    (by simp [Option.isSome_iff_exists, recognize?_eq_some_iff, Recognizes])

/-- How many recognized lines have a keyword. -/
def count (rules : LineRules) (items : List Item) (keyword : Text) : Nat :=
  items.countP fun item => decide (rules.Recognizes item ∧ item.keyword? = some keyword)

/-- Lines break a rule, in a way that is a violation. -/
inductive Breaks (rules : LineRules) (items : List Item) : LineRule → Violation → Prop where
  | empty (none : items = []) : Breaks rules items .opening (.empty rules.leading)
  | wrongLeading {first : Item} {others : List Item} (head : items = first :: others)
      (wrong : first.keyword? ≠ some rules.leading) :
      Breaks rules items .opening (.wrongLeading rules.leading first.line)
  | unrecognized {index : Nat} {item : Item} (strict : rules.strict = true)
      (found : items[index]? = some item) (foreign : ¬rules.Recognizes item) :
      Breaks rules items (.line index) (.unrecognized item.keyword? item.line)
  | missing {keyword : Text} (member : keyword ∈ rules.constraints.exactlyOnce)
      (never : rules.count items keyword = 0) :
      Breaks rules items (.exactlyOnce keyword) (.missing keyword)
  | duplicate {keyword : Text} (member : keyword ∈ rules.constraints.exactlyOnce)
      (often : 1 < rules.count items keyword) :
      Breaks rules items (.exactlyOnce keyword) (.duplicate keyword (rules.count items keyword))
  | repeated {keyword : Text} (member : keyword ∈ rules.constraints.atMostOnce)
      (often : 1 < rules.count items keyword) :
      Breaks rules items (.atMostOnce keyword) (.repeated keyword (rules.count items keyword))
  | missingDependency {keyword needed : Text}
      (member : (keyword, needed) ∈ rules.constraints.dependsOn)
      (occurs : 0 < rules.count items keyword) (never : rules.count items needed = 0) :
      Breaks rules items (.dependency keyword needed) (.missingDependency keyword needed)

/-- Lines satisfy the rules. -/
structure Satisfied (rules : LineRules) (items : List Item) : Prop where
  opening : ∃ token others, items = .token token :: others ∧ token.keyword = rules.leading
  recognized : rules.strict = true → ∀ item ∈ items, rules.Recognizes item
  exactlyOnce : ∀ keyword ∈ rules.constraints.exactlyOnce, rules.count items keyword = 1
  atMostOnce : ∀ keyword ∈ rules.constraints.atMostOnce, rules.count items keyword ≤ 1
  dependencies : ∀ keyword needed, (keyword, needed) ∈ rules.constraints.dependsOn →
    0 < rules.count items keyword → 0 < rules.count items needed

/-- What is kept of valid lines. -/
structure Keeps (rules : LineRules) (items : List Item) (validated : Validated) : Prop where
  tokens : validated.tokens.map Item.token = items.filter fun item => rules.Recognizes item
  counts : ∀ keyword count, (keyword, count) ∈ validated.counts ↔
    0 < count ∧ count = rules.count items keyword
  distinct : (OrderedMap.keys validated.counts).Nodup
  uncapped : rules.cap = none →
    validated.unrecognized = (items.filter fun item => ¬rules.Recognizes item).map Item.line
  capped : ∀ cap, rules.cap = some cap →
    validated.unrecognized =
      ((items.filter fun item => ¬rules.Recognizes item).map Item.line).take (max cap 0).toNat

/-! ## Recognized lines -/

theorem isNone_recognize?_iff : (rules.recognize? item).isNone = true ↔ ¬rules.Recognizes item := by
  rw [Option.isNone_iff_eq_none, Option.eq_none_iff_forall_not_mem]
  simp only [Option.mem_def, recognize?_eq_some_iff, Recognizes, not_exists]

theorem map_token_filterMap_recognize? :
    (items.filterMap rules.recognize?).map Item.token =
      items.filter fun item => rules.Recognizes item := by
  induction items with
  | nil => rfl
  | cons item items induction =>
      cases found : rules.recognize? item with
      | none =>
          have foreign := isNone_recognize?_iff.mp (Option.isNone_iff_eq_none.mpr found)
          rw [List.filterMap_cons_none found, List.filter_cons_of_neg (by simpa using foreign),
            induction]
      | some token =>
          obtain ⟨rfl, member⟩ := recognize?_eq_some_iff.mp found
          have known : rules.Recognizes (.token token) := ⟨token, rfl, member⟩
          rw [List.filterMap_cons_some found, List.map_cons,
            List.filter_cons_of_pos (by simpa using known), induction]

theorem occurrences_filterMap_recognize? :
    occurrences keyword (items.filterMap rules.recognize?) = rules.count items keyword := by
  have each : occurrences keyword (items.filterMap rules.recognize?) =
      ((items.filterMap rules.recognize?).map Item.token).countP fun item =>
        decide (item.keyword? = some keyword) := by
    rw [List.countP_map, occurrences]
    congr 1
    funext token
    simp [Item.keyword?, Item.token?]
  rw [each, map_token_filterMap_recognize?, List.countP_filter, count]
  congr 1
  funext item
  simp [and_comm]

theorem violation?_eq (rules : LineRules) (items : List Item) :
    rules.violation? items = (rules.leadingViolation? items).or
      ((rules.strictViolation? items).or
        (rules.constraints.violation? (rules.count items))) := by
  have counts : (occurrences · (items.filterMap rules.recognize?)) = rules.count items :=
    funext fun _ => occurrences_filterMap_recognize?
  rw [violation?, counts]

theorem unrecognizedLines_eq :
    rules.unrecognizedLines items =
      (items.filter fun item => ¬rules.Recognizes item).map Item.line := by
  rw [unrecognizedLines]
  congr 2
  funext item
  rw [Bool.eq_iff_iff, isNone_recognize?_iff, decide_eq_true_iff]

theorem Breaks.violation_unique {rule : LineRule} {other : Violation}
    (broken : rules.Breaks items rule violation) (again : rules.Breaks items rule other) :
    violation = other := by
  cases broken with
  | empty none =>
      cases again with
      | empty => rfl
      | wrongLeading head => exact absurd (none.symm.trans head) (List.cons_ne_nil _ _).symm
  | wrongLeading head wrong =>
      cases again with
      | empty none => exact absurd (none.symm.trans head) (List.cons_ne_nil _ _).symm
      | wrongLeading otherHead =>
          obtain ⟨rfl, _⟩ := List.cons.inj (head.symm.trans otherHead)
          rfl
  | unrecognized strict found =>
      cases again with
      | unrecognized _ otherFound =>
          obtain rfl := Option.some.inj (found.symm.trans otherFound)
          rfl
  | missing member never =>
      cases again with
      | missing => rfl
      | duplicate _ often => omega
  | duplicate member often =>
      cases again with
      | missing _ never => omega
      | duplicate => rfl
  | repeated =>
      cases again with
      | repeated => rfl
  | missingDependency =>
      cases again with
      | missingDependency => rfl

/-! ## What breaks a rule -/

theorem breaks_opening_iff :
    rules.Breaks items .opening violation ↔ rules.leadingViolation? items = some violation := by
  constructor
  · intro broken
    cases broken with
    | empty none => rw [none, leadingViolation?]
    | wrongLeading head wrong => rw [head, leadingViolation?, if_neg wrong]
  · intro found
    cases items with
    | nil =>
        cases found
        exact .empty rfl
    | cons first others =>
        rw [leadingViolation?] at found
        split at found
        next => cases found
        next wrong =>
          cases found
          exact .wrongLeading rfl wrong

theorem breaks_exactlyOnce_iff :
    rules.Breaks items (.exactlyOnce keyword) violation ↔
      keyword ∈ rules.constraints.exactlyOnce ∧
        Constraints.exactlyOnceViolation? (rules.count items) keyword = some violation := by
  rw [Constraints.exactlyOnceViolation?]
  constructor
  · intro broken
    cases broken with
    | missing member never =>
        rw [never]
        exact ⟨member, rfl⟩
    | duplicate member often => exact ⟨member, by split <;> first | omega | rfl⟩
  · rintro ⟨member, found⟩
    split at found
    next never =>
      cases found
      exact .missing member never
    next => cases found
    next notNever notOnce =>
      cases found
      exact .duplicate member
        (Nat.lt_of_le_of_ne (Nat.pos_of_ne_zero notNever) (Ne.symm notOnce))

theorem breaks_atMostOnce_iff :
    rules.Breaks items (.atMostOnce keyword) violation ↔
      keyword ∈ rules.constraints.atMostOnce ∧
        Constraints.atMostOnceViolation? (rules.count items) keyword = some violation := by
  rw [Constraints.atMostOnceViolation?]
  constructor
  · intro broken
    cases broken with
    | repeated member often => exact ⟨member, if_pos often⟩
  · rintro ⟨member, found⟩
    split at found
    next often =>
      cases found
      exact .repeated member often
    next => cases found

theorem breaks_dependency_iff {entry : Text × Text} :
    rules.Breaks items (.dependency entry.1 entry.2) violation ↔
      entry ∈ rules.constraints.dependsOn ∧
        Constraints.dependencyViolation? (rules.count items) entry = some violation := by
  rw [Constraints.dependencyViolation?]
  constructor
  · intro broken
    cases broken with
    | missingDependency member occurs never => exact ⟨member, if_pos ⟨occurs, never⟩⟩
  · rintro ⟨member, found⟩
    split at found
    next both =>
      cases found
      exact .missingDependency member both.1 both.2
    next => cases found

/-! ## The order of the checks -/

/-- A check reports the first broken rule of some stages, if one of them is broken. -/
structure Checks (rules : LineRules) (items : List Item) (low high : Nat)
    (result : Option Violation) : Prop where
  found : ∀ violation, result = some violation →
    ∃ rule, rules.Breaks items rule violation ∧ low ≤ rule.stage ∧ rule.stage < high ∧
      ∀ other otherViolation, rules.Breaks items other otherViolation →
        low ≤ other.stage → other.stage < high → other = rule ∨ rule.Before other
  silent : result = none → ∀ rule violation, rules.Breaks items rule violation →
    low ≤ rule.stage → ¬rule.stage < high

/-- Checks may be made one after the other. -/
theorem Checks.or {low middle high : Nat} {first second : Option Violation}
    (before : rules.Checks items low middle first) (after : rules.Checks items middle high second)
    (ordered : low ≤ middle ∧ middle ≤ high) : rules.Checks items low high (first.or second) := by
  cases result : first with
  | some violation =>
      constructor
      · rintro _ ⟨⟩
        obtain ⟨rule, broken, above, below, least⟩ := before.found violation result
        refine ⟨rule, broken, above, by omega, ?_⟩
        intro other otherViolation otherBroken otherAbove otherBelow
        by_cases early : other.stage < middle
        · exact least other otherViolation otherBroken otherAbove early
        · exact .inr (.stage (by omega))
      · intro none
        cases none
  | none =>
      have nothing := before.silent result
      constructor
      · intro violation found
        obtain ⟨rule, broken, above, below, least⟩ := after.found violation found
        refine ⟨rule, broken, by omega, below, ?_⟩
        intro other otherViolation otherBroken otherAbove otherBelow
        have late := nothing other otherViolation otherBroken otherAbove
        exact least other otherViolation otherBroken (by omega) otherBelow
      · intro none rule violation broken above
        have late := nothing rule violation broken above
        exact after.silent none rule violation broken (by omega)

/-- A search through an ascending list for something that breaks a rule. -/
theorem checks_findSome? {α : Type} {stage : Nat} {list : List α} {R : α → α → Prop}
    {find : α → Option Violation} (rule : α → LineRule)
    (ascending : list.Pairwise R) (before : ∀ a b, R a b → (rule a).Before (rule b))
    (staged : ∀ a, (rule a).stage = stage)
    (broken : ∀ a violation, rules.Breaks items (rule a) violation ↔
      a ∈ list ∧ find a = some violation)
    (every : ∀ other violation, rules.Breaks items other violation → other.stage = stage →
      ∃ a, other = rule a) :
    rules.Checks items stage (stage + 1) (list.findSome? find) := by
  constructor
  · intro violation found
    obtain ⟨above, a, below, rfl, here, nothing⟩ := List.findSome?_eq_some_iff.mp found
    have stage := staged a
    refine ⟨rule a, (broken a violation).mpr ⟨by simp, here⟩, by omega, by omega, ?_⟩
    intro other otherViolation otherBroken low high
    obtain ⟨b, rfl⟩ := every other otherViolation otherBroken (by omega)
    obtain ⟨member, there⟩ := (broken b otherViolation).mp otherBroken
    rcases List.mem_append.mp member with earlier | later
    · rw [nothing b earlier] at there
      cases there
    · rcases List.mem_cons.mp later with rfl | later
      · exact .inl rfl
      · have rest := (List.pairwise_append.mp ascending).2.1
        exact .inr (before a b ((List.pairwise_cons.mp rest).1 b later))
  · intro none other violation otherBroken low high
    obtain ⟨a, rfl⟩ := every other violation otherBroken (by omega)
    obtain ⟨member, there⟩ := (broken a violation).mp otherBroken
    rw [List.findSome?_eq_none_iff.mp none a member] at there
    cases there

theorem checks_opening : rules.Checks items 0 1 (rules.leadingViolation? items) := by
  constructor
  · intro violation found
    refine ⟨.opening, breaks_opening_iff.mpr found, Nat.le_refl 0, Nat.zero_lt_one, ?_⟩
    intro other _ _ _ early
    exact .inl (LineRule.stage_eq_zero_iff.mp (Nat.lt_one_iff.mp early))
  · intro none rule violation broken _ early
    rw [LineRule.stage_eq_zero_iff.mp (Nat.lt_one_iff.mp early), breaks_opening_iff, none] at broken
    cases broken

theorem checks_lines : rules.Checks items 1 2 (rules.strictViolation? items) := by
  have staged : ∀ {rule : LineRule}, 1 ≤ rule.stage → rule.stage < 2 →
      ∃ index, rule = .line index :=
    fun low high => LineRule.stage_eq_one_iff.mp (by omega)
  constructor
  · intro violation found
    rw [strictViolation?] at found
    split at found
    next strict =>
      obtain ⟨item, first, rfl⟩ := Option.map_eq_some_iff.mp found
      obtain ⟨foreign, above, below, rfl, known⟩ := List.find?_eq_some_iff_append.mp first
      refine ⟨.line above.length,
        .unrecognized strict (by simp) (isNone_recognize?_iff.mp foreign), Nat.le_refl 1,
        Nat.one_lt_two, ?_⟩
      intro other otherViolation broken low high
      obtain ⟨index, rfl⟩ := staged low high
      cases broken with
      | unrecognized _ otherFound otherForeign =>
          rcases Nat.lt_trichotomy index above.length with earlier | same | later
          · -- The lines above are recognized.
            rw [List.getElem?_append_left earlier] at otherFound
            have nothing := known _ (List.mem_of_getElem? otherFound)
            rw [isNone_recognize?_iff.mpr otherForeign] at nothing
            cases nothing
          · exact .inl (congrArg LineRule.line same)
          · exact .inr (.line later)
    next => cases found
  · intro none rule violation broken low high
    obtain ⟨index, rfl⟩ := staged low high
    cases broken with
    | unrecognized strict found foreign =>
        rw [strictViolation?, if_pos strict, Option.map_eq_none_iff] at none
        have known := List.find?_eq_none.mp none _ (List.mem_of_getElem? found)
        exact known (isNone_recognize?_iff.mpr foreign)

theorem checks_constraints (arranged : rules.constraints.Arranged) :
    rules.Checks items 2 5 (rules.constraints.violation? (rules.count items)) := by
  have exactlyOnce : rules.Checks items 2 3 (rules.constraints.exactlyOnce.findSome?
      (Constraints.exactlyOnceViolation? (rules.count items))) :=
    checks_findSome? .exactlyOnce arranged.exactlyOnce (fun _ _ => .exactlyOnce) (fun _ => rfl)
      (fun _ _ => breaks_exactlyOnce_iff) fun _ _ _ => LineRule.stage_eq_two_iff.mp
  have atMostOnce : rules.Checks items 3 4 (rules.constraints.atMostOnce.findSome?
      (Constraints.atMostOnceViolation? (rules.count items))) :=
    checks_findSome? .atMostOnce arranged.atMostOnce (fun _ _ => .atMostOnce) (fun _ => rfl)
      (fun _ _ => breaks_atMostOnce_iff) fun _ _ _ => LineRule.stage_eq_three_iff.mp
  have dependencies : rules.Checks items 4 5 (rules.constraints.sortedDependencies.findSome?
      (Constraints.dependencyViolation? (rules.count items))) :=
    checks_findSome? (fun entry => .dependency entry.1 entry.2) arranged.sortedDependencies
      (fun _ _ => .dependency) (fun _ => rfl)
      (fun _ _ => breaks_dependency_iff.trans
        (and_congr_left' Constraints.mem_sortedDependencies.symm))
      fun _ _ _ => LineRule.stage_eq_four_iff.mp
  exact exactlyOnce.or (atMostOnce.or dependencies (by decide)) (by decide)

theorem checks_all (arranged : rules.constraints.Arranged) :
    rules.Checks items 0 5 (rules.violation? items) := by
  rw [violation?_eq]
  exact checks_opening.or (checks_lines.or (checks_constraints arranged) (by decide)) (by decide)

/-- Lines satisfy the rules if they break none of them. -/
theorem satisfied_iff :
    rules.Satisfied items ↔ ∀ rule violation, ¬rules.Breaks items rule violation := by
  constructor
  · intro satisfied rule violation broken
    cases broken with
    | empty none =>
        obtain ⟨_, _, head, _⟩ := satisfied.opening
        exact absurd (none.symm.trans head) (List.cons_ne_nil _ _).symm
    | wrongLeading head wrong =>
        obtain ⟨token, _, other, leading⟩ := satisfied.opening
        obtain ⟨rfl, _⟩ := List.cons.inj (head.symm.trans other)
        exact wrong (congrArg some leading)
    | unrecognized strict found foreign =>
        exact foreign (satisfied.recognized strict _ (List.mem_of_getElem? found))
    | missing member never => exact absurd (satisfied.exactlyOnce _ member) (by omega)
    | duplicate member often => exact absurd (satisfied.exactlyOnce _ member) (by omega)
    | repeated member often => exact absurd (satisfied.atMostOnce _ member) (by omega)
    | missingDependency member occurs never =>
        exact absurd (satisfied.dependencies _ _ member occurs) (by omega)
  · intro unbroken
    constructor
    · cases items with
      | nil => exact absurd (.empty rfl) (unbroken _ _)
      | cons first others =>
          have leading : first.keyword? = some rules.leading := by
            by_contra wrong
            exact unbroken _ _ (.wrongLeading rfl wrong)
          cases first with
          | blank line => cases leading
          | token token => exact ⟨token, others, rfl, Option.some.inj leading⟩
    · intro strict item member
      by_contra foreign
      obtain ⟨index, found⟩ := List.getElem?_of_mem member
      exact unbroken _ _ (.unrecognized strict found foreign)
    · intro keyword member
      by_contra wrong
      rcases Nat.lt_or_gt_of_ne wrong with less | more
      · exact unbroken _ _ (.missing member (by omega))
      · exact unbroken _ _ (.duplicate member more)
    · intro keyword member
      by_contra often
      exact unbroken _ _ (.repeated member (by omega))
    · intro keyword needed member occurs
      by_contra never
      exact unbroken _ _ (.missingDependency member occurs (by omega))

/-! ## The verdict -/

theorem keeps_extract (rules : LineRules) (items : List Item) :
    rules.Keeps items (rules.extract items) := by
  constructor
  · exact map_token_filterMap_recognize?
  · intro keyword count
    rw [← occurrences_filterMap_recognize?]
    exact mem_keywordCounts
  · exact nodup_keys_keywordCounts _
  · intro uncapped
    rw [extract, kept, uncapped, unrecognizedLines_eq]
  · intro cap capped
    have same : (max cap 0).toNat = cap.toNat := by omega
    rw [extract, kept, capped, unrecognizedLines_eq, same]

/-- A violation is reported if it breaks a rule and every other rule that is broken comes later. -/
theorem violation?_eq_some_iff (arranged : rules.constraints.Arranged) :
    rules.violation? items = some violation ↔
      ∃ rule, rules.Breaks items rule violation ∧
        ∀ other otherViolation, rules.Breaks items other otherViolation →
          other = rule ∨ rule.Before other := by
  have checks : rules.Checks items 0 5 (rules.violation? items) := checks_all arranged
  constructor
  · intro found
    obtain ⟨rule, broken, _, _, least⟩ := checks.found violation found
    refine ⟨rule, broken, fun other otherViolation otherBroken => ?_⟩
    exact least other otherViolation otherBroken (Nat.zero_le _) other.stage_lt_five
  · rintro ⟨rule, broken, least⟩
    cases found : rules.violation? items with
    | none =>
        exact absurd rule.stage_lt_five (checks.silent found rule violation broken (Nat.zero_le _))
    | some other =>
        obtain ⟨first, firstBroken, _, _, firstLeast⟩ := checks.found other found
        -- Each of the two rules comes first.
        rcases least first other firstBroken with rfl | before
        · rw [firstBroken.violation_unique broken]
        · have late := firstLeast rule violation broken (Nat.zero_le _) rule.stage_lt_five
          rcases late with rfl | after
          · rw [firstBroken.violation_unique broken]
          · exact absurd after before.asymm

theorem violation?_eq_none_iff (arranged : rules.constraints.Arranged) :
    rules.violation? items = none ↔ rules.Satisfied items := by
  have checks : rules.Checks items 0 5 (rules.violation? items) := checks_all arranged
  rw [satisfied_iff]
  constructor
  · intro silent rule violation broken
    exact checks.silent silent rule violation broken (Nat.zero_le _) rule.stage_lt_five
  · intro unbroken
    by_contra found
    obtain ⟨violation, found⟩ := Option.ne_none_iff_exists'.mp found
    obtain ⟨rule, broken, _⟩ := checks.found violation found
    exact unbroken rule violation broken

theorem exists_validated_iff (arranged : rules.constraints.Arranged) :
    (∃ validated, rules.validate items = .ok validated) ↔ rules.Satisfied items := by
  simp only [validate_eq_ok_iff, exists_and_left, exists_eq', and_true,
    violation?_eq_none_iff arranged]

/-- Validation accepts lines that satisfy all rules, and keeps what is said of them; of other lines
it reports the first rule that they break. -/
theorem validate_verdict (leading : Text) (recognized exactlyOnce atMostOnce : List Text)
    (dependsOn : List (Text × Text)) (strict : Bool) (cap : Option Int) (items : List Item) :
    let constraints := Constraints.of exactlyOnce atMostOnce (OrderedMap.ofList dependsOn)
    let rules : LineRules := ⟨leading, recognized, constraints, strict, cap⟩
    (∀ keyword, (keyword ∈ constraints.exactlyOnce ↔ keyword ∈ exactlyOnce) ∧
      (keyword ∈ constraints.atMostOnce ↔ keyword ∈ atMostOnce)) ∧
    ((∃ validated, rules.validate items = .ok validated) ↔ rules.Satisfied items) ∧
    (∀ validated, rules.validate items = .ok validated → rules.Keeps items validated) ∧
    ∀ violation, rules.validate items = .error violation ↔
      ∃ rule, rules.Breaks items rule violation ∧
        ∀ other otherViolation, rules.Breaks items other otherViolation →
          other = rule ∨ rule.Before other := by
  intro constraints rules
  have arranged : rules.constraints.Arranged :=
    Constraints.arranged_of exactlyOnce atMostOnce dependsOn
  refine ⟨fun keyword => ⟨Text.mem_sortedSet, Text.mem_sortedSet⟩, exists_validated_iff arranged,
    ?_, ?_⟩
  · intro validated valid
    obtain ⟨_, rfl⟩ := validate_eq_ok_iff.mp valid
    exact keeps_extract rules items
  · intro violation
    rw [validate_eq_error_iff, violation?_eq_some_iff arranged]

theorem validate_verdict_foreign :
    let items := ["router", "foreign", "other"].map fun word =>
      Item.token ⟨word.toList, [], word.toList, false⟩
    let constraints := Constraints.of ["router".toList] [] (OrderedMap.ofList [])
    let rules : LineRules := ⟨"router".toList, ["router".toList], constraints, false, some 1⟩
    ∃ validated, rules.validate items = .ok validated ∧ rules.Keeps items validated ∧
      validated.counts = [("router".toList, 1)] ∧ validated.unrecognized = ["foreign".toList] := by
  intro items constraints rules
  obtain ⟨_, _, keeps, _⟩ :=
    validate_verdict "router".toList ["router".toList] ["router".toList] [] [] false (some 1) items
  exact ⟨_, rfl, keeps _ rfl, by decide, by decide⟩

end LineRules

end RelayDescriptor
