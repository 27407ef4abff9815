import RelayDescriptor.Proofs.Record.Typed

/-!
# Fields that are written once

A line writes its fields anew, whatever they held before.  That no value is lost rests on
the constraints, which count the keywords of such lines.  Two keywords of extra-info
descriptors are not counted, and of their lines only the last one is kept.
-/

namespace RelayDescriptor

namespace Grammar

variable {grammar : Grammar} {tokens above below : List Token} {record : Record}
  {rule other : FieldRule} {token first second : Token} {field : String}

/-- No two lines write one field anew. -/
def WritesOnce (grammar : Grammar) (tokens : List Token) : Prop :=
  tokens.Pairwise fun first second => ∀ rule other,
    grammar.rule? first.keyword = some rule → grammar.rule? second.keyword = some other →
      rule.repeated = false → other.repeated = false →
        ∀ field ∈ rule.decoder.fields, field ∉ other.decoder.fields

/-- If a line writes its fields anew, the record holds the values that it gives them. -/
def KeepsLine (grammar : Grammar) (record : Record) (token : Token) : Prop :=
  ∀ rule, grammar.rule? token.keyword = some rule → rule.repeated = false →
    ∃ values, rule.decoder.values token = .ok values ∧
      List.Forall₂ (fun field value => record.find? field = some value) rule.decoder.fields values

/-- The values of a line are kept if no later line writes its fields. -/
theorem Acceptance.keepsLine (acceptance : grammar.Acceptance (above ++ token :: below) record)
    (member : grammar ∈ Registry.standard)
    (last : ∀ later ∈ below, ∀ rule other, grammar.rule? token.keyword = some rule →
      grammar.rule? later.keyword = some other → rule.repeated = false →
        ∀ field ∈ rule.decoder.fields, field ∉ other.decoder.fields) :
    grammar.KeepsLine record token := by
  intro rule found once
  have orderly := Registry.isOrderly_of_mem_standard member
  have unshared := isUnshared_of_mem_standard member
  have inside := (orderly.rule?_eq_some_iff.mp found).1
  obtain ⟨values, read⟩ := exists_values_of_foldlM acceptance.decoded (by simp) found
  have long : rule.decoder.fields.length = values.length :=
    ((orderly.complete rule inside).values token values read).symm
  have kept : ∀ field ∈ rule.decoder.fields,
      OrderedMap.find? field acceptance.fields = rule.decoder.valueOf? field token := by
    intro field own
    have silent : below.filterMap (grammar.valueOf? field) = [] := by
      apply List.filterMap_eq_nil_iff.mpr
      intro later member
      exact orderly.valueOf?_eq_none fun other written =>
        last later member rule other found written once field own
    obtain ⟨value, given⟩ := Decoder.exists_valueOf? (orderly.complete rule inside) own read
    rw [find?_decodeTokens_anew orderly (orderly.writesAnew inside once own) acceptance.decoded,
      List.filterMap_append, List.filterMap_cons, valueOf?_of_rule found, given, silent]
    exact List.getLast?_concat
  have chosen := mem_onceRules.mpr ⟨inside, once⟩
  refine ⟨values, read, List.forall₂_iff_zip.mpr ⟨long, ?_⟩⟩
  intro field value pair
  have own : field ∈ rule.decoder.fields := (List.of_mem_zip pair).1
  obtain ⟨initial, known⟩ := unshared.exists_initial chosen own
  have distinct : (OrderedMap.keys (rule.decoder.fields.zip values)).Nodup := by
    rw [Decoder.keys_zip (orderly.complete rule inside) read]
    exact orderly.fields rule inside
  rw [acceptance.find?_record member (unshared.ordinary rule chosen field own), known,
    kept field own, Decoder.valueOf?_of_values (orderly.complete rule inside).uniform read,
    OrderedMap.find?_of_mem distinct pair]
  rfl

theorem Acceptance.keepsLine_of_last
    (acceptance : grammar.Acceptance (above ++ token :: below) record)
    (member : grammar ∈ Registry.standard)
    (last : ∀ later ∈ below, later.keyword ≠ token.keyword) :
    grammar.KeepsLine record token := by
  apply acceptance.keepsLine member
  intro later inside rule other found written once field own shared
  -- Rules that share a field are equal, so a later line with the field has the keyword as well.
  have orderly := Registry.isOrderly_of_mem_standard member
  obtain ⟨ruled, same⟩ := orderly.rule?_eq_some_iff.mp found
  obtain ⟨among, again⟩ := orderly.rule?_eq_some_iff.mp written
  obtain ⟨rfl, _⟩ := eq_of_shared member ruled once among own shared
  exact last later inside (again.symm.trans same)

theorem Acceptance.keepsLine_of_writesOnce (acceptance : grammar.Acceptance tokens record)
    (member : grammar ∈ Registry.standard) (once : grammar.WritesOnce tokens)
    (inside : token ∈ tokens) : grammar.KeepsLine record token := by
  obtain ⟨above, below, rfl⟩ := List.append_of_mem inside
  apply acceptance.keepsLine member
  intro later after rule other found written anew field own shared
  have orderly := Registry.isOrderly_of_mem_standard member
  have pair : [token, later].Sublist (above ++ token :: below) :=
    (((List.singleton_sublist.mpr after).cons_cons token).trans (List.sublist_append_right _ _))
  obtain ⟨_, again⟩ := eq_of_shared member (orderly.rule?_eq_some_iff.mp found).1 anew
    (orderly.rule?_eq_some_iff.mp written).1 own shared
  exact List.pairwise_iff_forall_sublist.mp once pair rule other found written anew again field own
    shared

end Grammar

/-- The keywords whose lines write their fields anew although no constraint counts them. -/
def ExtraInfo.uncounted : List Text :=
  ["geoip-start-time", "geoip-client-origins"].map String.toList

namespace Registry

variable {grammar : Grammar} {rule : FieldRule}

theorem counted_of_mem_onceRules (member : grammar ∈ standard) (chosen : rule ∈ grammar.onceRules) :
    rule.keyword ∈ ExtraInfo.uncounted ∨
      rule.keyword ∈ grammar.constraints.exactlyOnce ++ grammar.constraints.atMostOnce := by
  have counted : ∀ grammar ∈ standard, ∀ rule ∈ grammar.onceRules,
      rule.keyword ∈ ExtraInfo.uncounted ∨
        rule.keyword ∈ grammar.constraints.exactlyOnce ++ grammar.constraints.atMostOnce := by
    decide +kernel
  exact counted grammar member rule chosen

/-- A recognized keyword that is not counted writes some field anew. -/
theorem exists_field_of_uncounted (member : grammar ∈ standard) {keyword : Text}
    (known : keyword ∈ grammar.recognized) (free : keyword ∈ ExtraInfo.uncounted) :
    ∃ rule, grammar.rule? keyword = some rule ∧ rule.repeated = false ∧
      ∃ field, field ∈ rule.decoder.fields := by
  have ruled : ∀ grammar ∈ standard, ∀ keyword ∈ grammar.passthrough,
      keyword ∉ ExtraInfo.uncounted := by decide
  have writes : ∀ grammar ∈ standard, ∀ rule ∈ grammar.rules,
      rule.keyword ∈ ExtraInfo.uncounted →
        rule.repeated = false ∧ rule.decoder.fields ≠ [] := by decide +kernel
  rcases List.mem_append.mp known with known | meaningless
  · obtain ⟨rule, among, rfl⟩ := List.mem_map.mp known
    obtain ⟨anew, nonempty⟩ := writes grammar member rule among free
    exact ⟨rule, (isOrderly_of_mem_standard member).rule?_eq_some_iff.mpr ⟨among, rfl⟩, anew,
      List.exists_mem_of_ne_nil _ nonempty⟩
  · exact absurd free (ruled grammar member keyword meaningless)

end Registry

namespace Grammar

variable {grammar : Grammar} {tokens : List Token} {record : Record}

theorem WritesOnce.occurrences_le_one (once : grammar.WritesOnce tokens)
    (member : grammar ∈ Registry.standard)
    (known : ∀ token ∈ tokens, token.keyword ∈ grammar.recognized) {keyword : Text}
    (free : keyword ∈ ExtraInfo.uncounted) : occurrences keyword tokens ≤ 1 := by
  apply occurrences_le_one_iff.mpr
  rintro first second inside rfl same
  obtain ⟨rule, found, anew, field, own⟩ := Registry.exists_field_of_uncounted member
    (known first (inside.subset List.mem_cons_self)) free
  exact List.pairwise_iff_forall_sublist.mp once inside rule rule found (same ▸ found) anew anew
    field own own

/-- Lines that write one field anew have one keyword, which a constraint counts or which is one
of the two that are not counted. -/
theorem Acceptance.writesOnce (acceptance : grammar.Acceptance tokens record)
    (member : grammar ∈ Registry.standard)
    (single : ∀ keyword ∈ ExtraInfo.uncounted, occurrences keyword tokens ≤ 1) :
    grammar.WritesOnce tokens := by
  have orderly := Registry.isOrderly_of_mem_standard member
  apply List.pairwise_iff_forall_sublist.mpr
  intro first second inside rule other found written anew again field own shared
  obtain ⟨among, same⟩ := orderly.rule?_eq_some_iff.mp found
  obtain ⟨besides, equal⟩ := orderly.rule?_eq_some_iff.mp written
  obtain ⟨rfl, _⟩ := eq_of_shared member among anew besides own shared
  have once : occurrences rule.keyword tokens ≤ 1 := by
    rcases Registry.counted_of_mem_onceRules member (mem_onceRules.mpr ⟨among, anew⟩) with
      free | bound
    · exact single rule.keyword free
    · exact acceptance.occurrences_le_one bound
  exact occurrences_le_one_iff.mp once first second inside same.symm equal.symm

end Grammar

namespace Document

variable {blob : Blob} {range : ByteRange} {grammar : Grammar} {strict : Bool}
  {origin : Option Text} {document : Document} {raw : List UInt8} {token : Token}

theorem keyword_of_mem_recognized (member : token ∈ recognized grammar raw) :
    token.keyword ∈ grammar.recognized := by
  obtain ⟨item, _, found⟩ := List.mem_filterMap.mp member
  exact List.contains_iff_mem.mp (Option.filter_eq_some_iff.mp found).2

/-- The lines of an accepted document write every field at most once, except for those of the
keywords that are not counted.  If none of these comes again the record holds the values of all
lines, and of lines with one keyword it always holds those of the last. -/
theorem writesOnce_iff (member : grammar ∈ Registry.standard)
    (parsed : parse blob range grammar strict origin = .ok document) :
    let lines := recognized grammar (blob.slice range)
    (grammar.WritesOnce lines ↔
      ∀ keyword ∈ ExtraInfo.uncounted, occurrences keyword lines ≤ 1) ∧
    (grammar.WritesOnce lines → ∀ token ∈ lines, grammar.KeepsLine document.record token) ∧
    ∀ above token below, lines = above ++ token :: below →
      (∀ later ∈ below, later.keyword ≠ token.keyword) →
        grammar.KeepsLine document.record token := by
  intro lines
  obtain ⟨acceptance⟩ := exists_acceptance_of_parse parsed
  refine ⟨⟨?_, acceptance.writesOnce member⟩, ?_, ?_⟩
  · intro once keyword free
    exact once.occurrences_le_one member (fun token => keyword_of_mem_recognized) free
  · intro once token
    exact acceptance.keepsLine_of_writesOnce member once
  · intro above token below split
    rw [show recognized grammar (blob.slice range) = _ from split] at acceptance
    exact acceptance.keepsLine_of_last member

theorem writesOnce_iff_single :
    let bytes := ("extra-info a 0000000000000000000000000000000000000000\n" ++
      "published 2012-02-10 18:32:51\ngeoip-start-time 2012-02-10 18:32:51\n").toList.map
        Ascii.byte
    ∃ grammar ∈ Registry.standard, ∃ document,
      parse ⟨bytes, none⟩ (wholeRange bytes) grammar true none = .ok document ∧
        grammar.WritesOnce (recognized grammar bytes) ∧
          ∀ token ∈ recognized grammar bytes, grammar.KeepsLine document.record token := by
  intro bytes
  have found : Registry.standard.find? .extraInfo = some _ := rfl
  have member := List.mem_of_find?_eq_some found
  have accepted : (parse ⟨bytes, none⟩ (wholeRange bytes)
      (ExtraInfo.grammar .extraInfo "Relay extra-info descriptor") true none).isOk = true := by
    decide +kernel
  obtain ⟨document, parsed⟩ := exists_of_isOk accepted
  obtain ⟨once, keeps, _⟩ := writesOnce_iff member parsed
  have whole := slice_bytes bytes none
  rw [whole] at once keeps
  have single : ∀ keyword ∈ ExtraInfo.uncounted, occurrences keyword (recognized
      (ExtraInfo.grammar .extraInfo "Relay extra-info descriptor") bytes) ≤ 1 := by
    decide +kernel
  exact ⟨_, member, document, parsed, once.mpr single, keeps (once.mpr single)⟩

/-- An extra-info descriptor with two start times is accepted, and the first of them is lost. -/
theorem not_writesOnce_geoip :
    let bytes := ("extra-info a 0000000000000000000000000000000000000000\n" ++
      "published 2012-02-10 18:32:51\ngeoip-start-time 2012-02-10 18:32:51\n" ++
      "geoip-start-time 2012-02-11 18:32:51\n").toList.map Ascii.byte
    ∃ grammar ∈ Registry.standard, ∃ document,
      parse ⟨bytes, none⟩ (wholeRange bytes) grammar true none = .ok document ∧
        ¬grammar.WritesOnce (recognized grammar bytes) ∧
          document.record.find? "geoip_start_time_millis" = some (.integer 1328985171000) ∧
            ∃ token ∈ recognized grammar bytes, ¬grammar.KeepsLine document.record token := by
  intro bytes
  have registered : Registry.standard.find? .extraInfo = some _ := rfl
  have member := List.mem_of_find?_eq_some registered
  let grammar := ExtraInfo.grammar .extraInfo "Relay extra-info descriptor"
  have accepted : (parse ⟨bytes, none⟩ (wholeRange bytes) grammar true none).isOk = true := by
    decide +kernel
  obtain ⟨document, parsed⟩ := exists_of_isOk accepted
  let line := fun (keyword : String) (arguments : List String) (line : String) =>
    (⟨keyword.toList, arguments.map String.toList, line.toList, false⟩ : Token)
  let above :=
    [
      line "extra-info" ["a", "0000000000000000000000000000000000000000"]
        "extra-info a 0000000000000000000000000000000000000000",
      line "published" ["2012-02-10", "18:32:51"] "published 2012-02-10 18:32:51"
    ]
  let first := line "geoip-start-time" ["2012-02-10", "18:32:51"]
    "geoip-start-time 2012-02-10 18:32:51"
  let second := line "geoip-start-time" ["2012-02-11", "18:32:51"]
    "geoip-start-time 2012-02-11 18:32:51"
  have lines : recognized grammar bytes = (above ++ [first]) ++ second :: [] := by
    decide +kernel
  obtain ⟨acceptance⟩ := exists_acceptance_of_parse parsed
  have whole := slice_bytes bytes none
  rw [whole, lines] at acceptance
  have found : grammar.rule? "geoip-start-time".toList =
      some (.once "geoip-start-time" (.timestamp "geoip_start_time_millis")) := rfl
  have held : document.record.find? "geoip_start_time_millis" =
      some (.integer 1328985171000) := by
    obtain ⟨values, read, each⟩ :=
      acceptance.keepsLine_of_last member (by simp) _ found rfl
    have later : (Decoder.timestamp "geoip_start_time_millis").values second =
      .ok [.integer 1328985171000] := rfl
    cases later.symm.trans read
    exact (List.forall₂_cons.mp each).1
  refine ⟨grammar, member, document, parsed, ?_, held, first, ?_, ?_⟩
  · intro once
    have pair : [first, second].Sublist (recognized grammar bytes) := by
      rw [lines, List.append_assoc]
      exact List.sublist_append_right _ _
    exact List.pairwise_iff_forall_sublist.mp once pair _ _ found found rfl rfl
      "geoip_start_time_millis" List.mem_cons_self List.mem_cons_self
  · rw [lines]
    simp
  · intro keeps
    obtain ⟨values, read, each⟩ := keeps _ found rfl
    have earlier : (Decoder.timestamp "geoip_start_time_millis").values first =
      .ok [.integer 1328898771000] := rfl
    cases earlier.symm.trans read
    rw [(List.forall₂_cons.mp each).1] at held
    cases held

end Document

end RelayDescriptor
