import Mathlib.Data.List.Dedup
import RelayDescriptor.Proofs.Keyword.Verdict
import RelayDescriptor.Proofs.Prevailing

/-!
# Dependencies between keywords

A group says of several keywords that each of them needs the keyword of the group.  Of the
groups that a keyword is in only the last one counts.  Which keywords a valid document must
have if it has a given one is then found by going from each keyword to the one that it
needs: the document with no keywords but these is valid.
-/

namespace RelayDescriptor

namespace Constraints

variable {group : Text × List Text} {groups : List (Text × List Text)} {keyword needed : Text}
  {map : OrderedMap Text Text} {constraints : Constraints}

/-- A group says of a keyword in it that it needs the keyword of the group. -/
def Binds (keyword : Text) (group : Text × List Text) (needed : Text) : Prop :=
  needed = group.1 ∧ keyword ∈ group.2 ∧ keyword ≠ needed

/-- Some group says that a keyword needs another one. -/
def Demands (groups : List (Text × List Text)) (keyword needed : Text) : Prop :=
  ∃ group ∈ groups, Binds keyword group needed

theorem binds_functional (group : Text × List Text) (left right : Text)
    (first : Binds keyword group left) (second : Binds keyword group right) : left = right :=
  first.1.trans second.1.symm

/-- A group decides what the keywords in it need, and nothing else. -/
theorem find?_needs :
    OrderedMap.find? keyword (needs map group) =
      if keyword ∈ group.2 ∧ keyword ≠ group.1 then some group.1
      else OrderedMap.find? keyword map := by
  obtain ⟨needed, dependents⟩ := group
  rw [needs]
  induction dependents generalizing map with
  | nil => simp
  | cons dependent dependents induction =>
      rw [List.foldl_cons, induction]
      by_cases later : keyword ∈ dependents ∧ keyword ≠ needed
      · rw [if_pos later, if_pos ⟨List.mem_cons_of_mem _ later.1, later.2⟩]
      · rw [if_neg later]
        dsimp only
        by_cases own : dependent = needed
        · rw [if_pos own, if_neg]
          rintro ⟨listed, different⟩
          rcases List.mem_cons.mp listed with same | listed
          · exact different (same.trans own)
          · exact later ⟨listed, different⟩
        · rw [if_neg own]
          by_cases same : keyword = dependent
          · subst same
            rw [OrderedMap.find?_insert_self, if_pos ⟨List.mem_cons_self, own⟩]
          · rw [OrderedMap.find?_insert_of_ne same, if_neg]
            rintro ⟨listed, different⟩
            exact later ⟨(List.mem_cons.mp listed).resolve_left same, different⟩

theorem nodup_keys_needs (distinct : (OrderedMap.keys map).Nodup) (group : Text × List Text) :
    (OrderedMap.keys (needs map group)).Nodup := by
  rw [needs]
  induction group.2 generalizing map with
  | nil => exact distinct
  | cons dependent dependents induction =>
      rw [List.foldl_cons]
      split
      · exact induction distinct
      · exact induction (OrderedMap.nodup_keys_insert distinct dependent group.1)

theorem nodup_keys_foldl_needs (distinct : (OrderedMap.keys map).Nodup)
    (groups : List (Text × List Text)) : (OrderedMap.keys (groups.foldl needs map)).Nodup := by
  induction groups generalizing map with
  | nil => exact distinct
  | cons group groups induction => exact induction (nodup_keys_needs distinct group)

theorem nodup_keys_dependencies (groups : List (Text × List Text)) :
    (OrderedMap.keys (dependencies groups)).Nodup := by
  apply nodup_keys_foldl_needs
  exact List.nodup_nil

/-- What a keyword needs is what the last group says that it is in. -/
theorem prevails_dependencies (keyword : Text) (groups : List (Text × List Text)) :
    Prevails (Binds keyword) groups (OrderedMap.find? keyword (dependencies groups)) := by
  refine Prevails.foldl (OrderedMap.find?_nil keyword) ?_ groups
  intro map group
  rw [find?_needs]
  by_cases listed : keyword ∈ group.2 ∧ keyword ≠ group.1
  · rw [if_pos listed]
    exact .inl ⟨group.1, rfl, rfl, listed⟩
  · rw [if_neg listed]
    refine .inr ⟨?_, rfl⟩
    rintro needed ⟨rfl, binds⟩
    exact listed binds

theorem mem_dependencies_iff :
    (keyword, needed) ∈ dependencies groups ↔ Prevails (Binds keyword) groups (some needed) := by
  have prevails := prevails_dependencies keyword groups
  constructor
  · intro member
    rwa [OrderedMap.find?_of_mem (nodup_keys_dependencies groups) member] at prevails
  · intro prevailsHere
    exact OrderedMap.mem_of_find?_eq_some (prevails.unique binds_functional prevailsHere)

theorem exists_prevails (demands : Demands groups keyword needed) :
    ∃ last, Prevails (Binds keyword) groups (some last) := by
  have prevails := prevails_dependencies keyword groups
  cases found : OrderedMap.find? keyword (dependencies groups) with
  | some last => exact ⟨last, found ▸ prevails⟩
  | none =>
      rw [found] at prevails
      obtain ⟨group, member, binds⟩ := demands
      cases prevails with
      | none silent => exact absurd binds (silent group member needed)

theorem arranged_dependencies (exactlyOnce atMostOnce : List Text)
    (groups : List (Text × List Text)) :
    (of exactlyOnce atMostOnce (dependencies groups)).Arranged where
  exactlyOnce := Text.sortedSet_ascending exactlyOnce
  atMostOnce := Text.sortedSet_ascending atMostOnce
  dependsOn := nodup_keys_dependencies groups

theorem eq_of_define {exactlyOnce atMostOnce : List Text} {dependsOn : OrderedMap Text Text}
    (defined : define exactlyOnce atMostOnce dependsOn = .ok constraints) :
    constraints = of exactlyOnce atMostOnce dependsOn := by
  rw [define] at defined
  split at defined
  · cases defined
  · cases defined
    rfl

theorem mem_keywords_iff :
    keyword ∈ constraints.keywords ↔
      keyword ∈ constraints.exactlyOnce ∨ keyword ∈ constraints.atMostOnce ∨
        (∃ needed, (keyword, needed) ∈ constraints.dependsOn) ∨
          ∃ other, (other, keyword) ∈ constraints.dependsOn := by
  simp [keywords, Text.mem_sortedSet]

theorem mem_keywords_of_mem_dependsOn (member : (keyword, needed) ∈ constraints.dependsOn) :
    keyword ∈ constraints.keywords ∧ needed ∈ constraints.keywords :=
  ⟨mem_keywords_iff.mpr (.inr (.inr (.inl ⟨needed, member⟩))),
    mem_keywords_iff.mpr (.inr (.inr (.inr ⟨keyword, member⟩)))⟩

end Constraints

namespace LineRules

variable {rules : LineRules} {items : List Item} {keyword needed other : Text}

/-- Some line has a keyword. -/
def Occurs (keyword : Text) (items : List Item) : Prop :=
  ∃ item ∈ items, item.keyword? = some keyword

/-- Lines that are accepted have a keyword if they have another one. -/
def Enforces (rules : LineRules) (keyword needed : Text) : Prop :=
  ∀ items validated, rules.validate items = .ok validated → Occurs keyword items →
    Occurs needed items

/-- The keywords that are asked for where a keyword occurs. -/
inductive Entails (rules : LineRules) (keyword : Text) : Text → Prop where
  | self : Entails rules keyword keyword
  | opening : Entails rules keyword rules.leading
  | exactlyOnce {other : Text} (member : other ∈ rules.constraints.exactlyOnce) :
      Entails rules keyword other
  | dependency {other needed : Text} (before : Entails rules keyword other)
      (member : (other, needed) ∈ rules.constraints.dependsOn) : Entails rules keyword needed

theorem count_pos_iff :
    0 < rules.count items keyword ↔ keyword ∈ rules.recognized ∧ Occurs keyword items := by
  rw [count, List.countP_pos_iff]
  constructor
  · rintro ⟨item, member, holds⟩
    obtain ⟨⟨token, rfl, known⟩, same⟩ := of_decide_eq_true holds
    have own : token.keyword = keyword := Option.some.inj same
    exact ⟨own ▸ known, _, member, same⟩
  · rintro ⟨known, item, member, same⟩
    refine ⟨item, member, decide_eq_true ⟨?_, same⟩⟩
    cases item with
    | blank line => cases same
    | token token => exact ⟨token, rfl, Option.some.inj same ▸ known⟩

theorem Satisfied.occurs_of_entails (satisfied : rules.Satisfied items)
    (known : ∀ keyword ∈ rules.constraints.keywords, keyword ∈ rules.recognized)
    (occurs : Occurs keyword items) (entails : rules.Entails keyword needed) :
    Occurs needed items := by
  induction entails with
  | self => exact occurs
  | opening =>
      obtain ⟨token, others, rfl, leads⟩ := satisfied.opening
      exact ⟨_, List.mem_cons_self, congrArg some leads⟩
  | exactlyOnce member =>
      have once := satisfied.exactlyOnce _ member
      exact (count_pos_iff.mp (Nat.lt_of_lt_of_eq Nat.zero_lt_one once.symm)).2
  | dependency _ member before =>
      have recognized := known _ (Constraints.mem_keywords_of_mem_dependsOn member).1
      exact (count_pos_iff.mp (satisfied.dependencies _ _ member
        (count_pos_iff.mpr ⟨recognized, before⟩))).2

/-! ## Documents of keywords alone -/

/-- Lines each of which is a keyword and nothing else. -/
def bareLines (keywords : List Text) : List Item :=
  keywords.map fun keyword => .token ⟨keyword, [], keyword, false⟩

theorem occurs_bareLines_iff {keywords : List Text} :
    Occurs keyword (bareLines keywords) ↔ keyword ∈ keywords := by
  simp [Occurs, bareLines, Item.keyword?, Item.token?]

theorem count_bareLines_le (keywords : List Text) :
    rules.count (bareLines keywords) keyword ≤ keywords.count keyword := by
  rw [count, bareLines, List.countP_map, List.count]
  apply List.countP_mono_left
  intro other _ holds
  have same := (of_decide_eq_true holds).2
  exact beq_iff_eq.mpr (Option.some.inj same)

/-- Keywords once each, beginning with the leading one, make up a document that satisfies the rules
if there are among them all those that must occur and those that they need. -/
theorem satisfied_bareLines {keywords : List Text} (distinct : keywords.Nodup)
    (leads : keywords.head? = some rules.leading)
    (recognized : rules.strict = true → ∀ keyword ∈ keywords, keyword ∈ rules.recognized)
    (known : ∀ keyword ∈ rules.constraints.keywords, keyword ∈ rules.recognized)
    (required : ∀ keyword ∈ rules.constraints.exactlyOnce, keyword ∈ keywords)
    (closed : ∀ keyword needed, (keyword, needed) ∈ rules.constraints.dependsOn →
      keyword ∈ keywords → needed ∈ keywords) :
    rules.Satisfied (bareLines keywords) := by
  have mostOnce : ∀ keyword, rules.count (bareLines keywords) keyword ≤ 1 := fun keyword =>
    (count_bareLines_le keywords).trans (List.nodup_iff_count_le_one.mp distinct keyword)
  have counted : ∀ keyword ∈ rules.constraints.keywords,
      (0 < rules.count (bareLines keywords) keyword ↔ keyword ∈ keywords) := by
    intro keyword member
    rw [count_pos_iff, occurs_bareLines_iff]
    exact and_iff_right (known keyword member)
  constructor
  · obtain ⟨others, rfl⟩ := List.head?_eq_some_iff.mp leads
    exact ⟨_, _, rfl, rfl⟩
  · intro strict item member
    obtain ⟨keyword, listed, rfl⟩ := List.mem_map.mp member
    exact ⟨_, rfl, recognized strict keyword listed⟩
  · intro keyword member
    have once := (counted keyword (Constraints.mem_keywords_iff.mpr (.inl member))).mpr
      (required keyword member)
    have most := mostOnce keyword
    omega
  · intro keyword _
    exact mostOnce keyword
  · intro keyword needed member occurs
    obtain ⟨needs, isNeeded⟩ := Constraints.mem_keywords_of_mem_dependsOn member
    rw [counted needed isNeeded]
    exact closed keyword needed member ((counted keyword needs).mp occurs)

/-- There are accepted lines with a keyword and no others than it entails. -/
theorem exists_satisfied_entailed
    (known : ∀ keyword ∈ rules.constraints.keywords, keyword ∈ rules.recognized)
    (opens : rules.strict = true → rules.leading ∈ rules.recognized)
    (member : keyword ∈ rules.recognized) :
    ∃ items, rules.Satisfied items ∧
      ∀ other, Occurs other items ↔ rules.Entails keyword other := by
  classical
  -- The leading keyword comes first; the others are taken from those that the rules mention.
  let mentioned := keyword :: rules.constraints.keywords
  let others := mentioned.dedup.filter fun other =>
    rules.Entails keyword other ∧ other ≠ rules.leading
  have fromMentioned : ∀ other, rules.Entails keyword other →
      other = rules.leading ∨ other ∈ mentioned := by
    intro other entails
    cases entails with
    | self => exact .inr List.mem_cons_self
    | opening => exact .inl rfl
    | exactlyOnce member =>
        exact .inr (List.mem_cons_of_mem _ (Constraints.mem_keywords_iff.mpr (.inl member)))
    | dependency _ member =>
        exact .inr (List.mem_cons_of_mem _ (Constraints.mem_keywords_of_mem_dependsOn member).2)
  have members : ∀ other, other ∈ rules.leading :: others ↔ rules.Entails keyword other := by
    intro other
    rw [List.mem_cons, List.mem_filter, List.mem_dedup, decide_eq_true_eq]
    constructor
    · rintro (rfl | ⟨_, entails, _⟩)
      · exact .opening
      · exact entails
    · intro entails
      by_cases leads : other = rules.leading
      · exact .inl leads
      · exact .inr ⟨(fromMentioned other entails).resolve_left leads, entails, leads⟩
  refine ⟨bareLines (rules.leading :: others), satisfied_bareLines ?_ rfl ?_ known ?_ ?_, ?_⟩
  · refine List.nodup_cons.mpr ⟨?_, (List.nodup_dedup mentioned).filter _⟩
    intro leads
    exact (of_decide_eq_true (List.mem_filter.mp leads).2).2 rfl
  · intro strict other listed
    rcases List.mem_cons.mp listed with rfl | listed
    · exact opens strict
    · rcases List.mem_cons.mp (List.mem_dedup.mp (List.mem_filter.mp listed).1) with rfl | named
      · exact member
      · exact known other named
  · exact fun other required => (members other).mpr (.exactlyOnce required)
  · intro other needed depends listed
    exact (members needed).mpr (.dependency ((members other).mp listed) depends)
  · intro other
    rw [occurs_bareLines_iff, members]

theorem enforces_iff (arranged : rules.constraints.Arranged)
    (known : ∀ keyword ∈ rules.constraints.keywords, keyword ∈ rules.recognized)
    (opens : rules.strict = true → rules.leading ∈ rules.recognized)
    (member : keyword ∈ rules.recognized) :
    rules.Enforces keyword needed ↔ rules.Entails keyword needed := by
  constructor
  · intro enforces
    -- The lines with no other keywords than the entailed ones are accepted.
    obtain ⟨items, satisfied, occurs⟩ := exists_satisfied_entailed known opens member
    obtain ⟨validated, valid⟩ := (exists_validated_iff arranged).mpr satisfied
    exact (occurs needed).mp (enforces items validated valid ((occurs keyword).mpr .self))
  · intro entails items validated valid occurs
    have satisfied := (exists_validated_iff arranged).mp ⟨validated, valid⟩
    exact satisfied.occurs_of_entails known occurs entails

/-- A keyword needs what the last of the groups says that it is in.  The lines that are accepted
obey another group that it is in exactly if the keyword of that group is entailed all the same; so
they obey all groups if no keyword is in two. -/
theorem enforces_groups {groups : List (Text × List Text)} {exactlyOnce atMostOnce : List Text}
    {constraints : Constraints} (leading : Text) (recognized : List Text) (strict : Bool)
    (cap : Option Int)
    (defined : Constraints.define exactlyOnce atMostOnce (Constraints.dependencies groups) =
      .ok constraints)
    (known : ∀ keyword ∈ constraints.keywords, keyword ∈ recognized)
    (opens : strict = true → leading ∈ recognized) :
    let rules : LineRules := ⟨leading, recognized, constraints, strict, cap⟩
    (∀ keyword needed, (keyword, needed) ∈ constraints.dependsOn ↔
      Prevails (Constraints.Binds keyword) groups (some needed)) ∧
    (∀ keyword needed, Constraints.Demands groups keyword needed →
      (rules.Enforces keyword needed ↔ rules.Entails keyword needed)) ∧
    ((∀ keyword needed other, Constraints.Demands groups keyword needed →
        Constraints.Demands groups keyword other → needed = other) →
      ∀ keyword needed, Constraints.Demands groups keyword needed →
        rules.Enforces keyword needed) := by
  intro rules
  obtain rfl := Constraints.eq_of_define defined
  have arranged := Constraints.arranged_dependencies exactlyOnce atMostOnce groups
  have exact_iff : ∀ keyword needed, Constraints.Demands groups keyword needed →
      (rules.Enforces keyword needed ↔ rules.Entails keyword needed) := by
    intro keyword needed demands
    obtain ⟨last, prevails⟩ := Constraints.exists_prevails demands
    have member : (keyword, last) ∈ rules.constraints.dependsOn :=
      Constraints.mem_dependencies_iff.mpr prevails
    have named := (Constraints.mem_keywords_of_mem_dependsOn member).1
    exact enforces_iff arranged known opens (known keyword named)
  refine ⟨fun _ _ => Constraints.mem_dependencies_iff, exact_iff, ?_⟩
  intro single keyword needed demands
  obtain ⟨last, prevails⟩ := Constraints.exists_prevails demands
  obtain rfl := single keyword needed last demands prevails.exists_mem
  exact (exact_iff keyword needed demands).mpr
    (.dependency .self (Constraints.mem_dependencies_iff.mpr prevails))

/-- The keyword of the first group is needed by way of that of the second one. -/
theorem enforces_groups_chain :
    let groups := [("a".toList, ["k".toList, "b".toList]), ("b".toList, ["b".toList, "k".toList])]
    let recognized := ["kw".toList, "k".toList, "a".toList, "b".toList]
    ∃ constraints,
      Constraints.define ["kw".toList] [] (Constraints.dependencies groups) = .ok constraints ∧
        (∀ keyword ∈ constraints.keywords, keyword ∈ recognized) ∧
          Constraints.Demands groups "k".toList "a".toList ∧
            (⟨"kw".toList, recognized, constraints, true, none⟩ : LineRules).Enforces
              "k".toList "a".toList := by
  intro groups recognized
  let constraints := Constraints.of ["kw".toList] [] (Constraints.dependencies groups)
  have defined : Constraints.define ["kw".toList] [] (Constraints.dependencies groups) =
    .ok constraints := rfl
  have known : ∀ keyword ∈ constraints.keywords, keyword ∈ recognized := by decide
  have demands : Constraints.Demands groups "k".toList "a".toList :=
    ⟨_, List.mem_cons_self, rfl, by decide, by decide⟩
  refine ⟨_, defined, known, demands, ?_⟩
  obtain ⟨_, enforced, _⟩ :=
    enforces_groups "kw".toList recognized true none defined known (by decide)
  apply (enforced "k".toList "a".toList demands).mpr
  have second : ("k".toList, "b".toList) ∈ constraints.dependsOn := by decide
  have first : ("b".toList, "a".toList) ∈ constraints.dependsOn := by decide
  exact .dependency (.dependency .self second) first

/-- Of two groups with one keyword the first one is not obeyed. -/
theorem not_enforces_groups :
    let groups := [("x".toList, ["k".toList]), ("y".toList, ["k".toList])]
    let recognized := ["kw".toList, "k".toList, "x".toList, "y".toList]
    ∃ constraints,
      Constraints.define ["kw".toList] [] (Constraints.dependencies groups) = .ok constraints ∧
        Constraints.Demands groups "k".toList "x".toList ∧
          ¬(⟨"kw".toList, recognized, constraints, false, none⟩ : LineRules).Enforces
            "k".toList "x".toList := by
  intro groups recognized
  refine ⟨_, rfl, ⟨_, List.mem_cons_self, rfl, by decide, by decide⟩, fun enforces => ?_⟩
  let keywords := ["kw".toList, "k".toList, "y".toList]
  have given : Occurs "k".toList (bareLines keywords) := occurs_bareLines_iff.mpr (by decide)
  have missing := occurs_bareLines_iff.mp (enforces (bareLines keywords) _ rfl given)
  exact absurd missing (by decide)

end LineRules

end RelayDescriptor
