import RelayDescriptor.Proofs.Field.Sections
import RelayDescriptor.Proofs.Record.Invariants
import RelayDescriptor.Proofs.Record.Lists

/-!
# The authorities of a network status

The sections of an accepted status are made of its lines that name authorities, give
their contacts or, in consensuses, the digests of their votes.  Each of these lines goes
into the sections with what it says, in the order of the document.
-/

namespace RelayDescriptor

namespace NetworkStatus

variable {grammar : Grammar} {token : Token} {value : Value}

/-- The keywords of the lines of authority sections. -/
def authorityKeywords (kind : Kind) : List String :=
  if kind = .vote then ["dir-source", "contact"] else ["dir-source", "contact", "vote-digest"]

/-- What a line of an authority section says.  A naming line says nothing of what the other lines
of its section are for. -/
inductive SaysOfAuthority (token : Token) : AuthorityContent → Prop where
  | source {nickname identity hostname address dirText orText : Text} {dirPort orPort : Int}
      (keyword : token.keyword = "dir-source".toList)
      (arguments : token.arguments = [nickname, identity, hostname, address, dirText, orText])
      (dir : portNumber token.line dirText = .ok dirPort)
      (or : portNumber token.line orText = .ok orPort) :
      SaysOfAuthority token (.source ⟨nickname, identity.map Char.toUpper, hostname, address,
        dirPort, orPort, none, none, []⟩)
  | contact (keyword : token.keyword = "contact".toList) :
      SaysOfAuthority token (.contact token.rest)
  | voteDigest {digest : Text} (keyword : token.keyword = "vote-digest".toList)
      (arguments : token.arguments = [digest]) :
      SaysOfAuthority token (.voteDigest (digest.map Char.toUpper))

theorem SaysOfAuthority.isBare {source : DirSource}
    (said : SaysOfAuthority token (.source source)) : source.IsBare := by
  cases said with
  | source => exact ⟨rfl, rfl⟩

/-- A line goes into the sections as it stands, with what it says. -/
def ReadsAuthority (token : Token) (line : AuthorityLine) : Prop :=
  line.keyword = token.keyword ∧ line.line = token.line ∧ SaysOfAuthority token line.content

theorem ReadsAuthority.isBare {line : AuthorityLine} (reads : ReadsAuthority token line) :
    line.IsBare := by
  intro source names
  have said := reads.2.2
  rw [names] at said
  exact said.isBare

theorem eq_of_address {line argument text : Text} (read : address line argument = .ok text) :
    text = argument := by
  rw [address] at read
  split at read
  next =>
    cases read
    rfl
  next => cases read

theorem readsAuthority_of_dirSource (keyword : token.keyword = "dir-source".toList)
    (given : dirSource.valueOf? authorityLines token = some value) :
    ∃ line, value = .authorityLine line ∧ ReadsAuthority token line := by
  obtain ⟨_, counted, read⟩ := bind_eq_ok_iff.mp (Decoder.valueOf?_ofToken.mp given)
  obtain ⟨digest, hex, read⟩ := bind_eq_ok_iff.mp read
  obtain ⟨place, dotted, read⟩ := bind_eq_ok_iff.mp read
  obtain ⟨dirPort, dir, read⟩ := bind_eq_ok_iff.mp read
  obtain ⟨orPort, or, read⟩ := bind_eq_ok_iff.mp read
  cases read
  obtain ⟨nickname, identity, hostname, address, dirText, orText, all⟩ :
      ∃ nickname identity hostname address dirText orText,
        token.arguments = [nickname, identity, hostname, address, dirText, orText] := by
    match token.arguments, Token.length_of_expectExactly counted with
    | [_, _, _, _, _, _], _ => exact ⟨_, _, _, _, _, _, rfl⟩
  simp only [Token.argument, all] at hex dotted dir or
  obtain rfl := eq_of_hexDigest hex
  obtain rfl := eq_of_address dotted
  refine ⟨_, rfl, rfl, rfl, ?_⟩
  rw [Token.argument, Token.argument, all]
  exact .source keyword all dir or

theorem readsAuthority_of_contact (keyword : token.keyword = "contact".toList)
    (given : contact.valueOf? authorityLines token = some value) :
    ∃ line, value = .authorityLine line ∧ ReadsAuthority token line := by
  cases Decoder.valueOf?_ofToken.mp given
  exact ⟨_, rfl, rfl, rfl, .contact keyword⟩

theorem readsAuthority_of_voteDigest (keyword : token.keyword = "vote-digest".toList)
    (given : voteDigest.valueOf? authorityLines token = some value) :
    ∃ line, value = .authorityLine line ∧ ReadsAuthority token line := by
  obtain ⟨_, counted, read⟩ := bind_eq_ok_iff.mp (Decoder.valueOf?_ofToken.mp given)
  obtain ⟨argument, only⟩ := List.length_eq_one_iff.mp (Token.length_of_expectExactly counted)
  obtain ⟨digest, hex, read⟩ := bind_eq_ok_iff.mp read
  cases read
  rw [Token.argument, only] at hex
  obtain rfl := eq_of_hexDigest hex
  exact ⟨_, rfl, rfl, rfl, .voteDigest keyword only⟩

/-- The decoders of the lines of authority sections. -/
def authorityDecoders (kind : Kind) : List (String × Decoder) :=
  if kind = .vote then [("dir-source", dirSource), ("contact", contact)]
  else [("dir-source", dirSource), ("contact", contact), ("vote-digest", voteDigest)]

theorem mem_authorityKeywords_iff {kind : Kind} {keyword : String} :
    keyword ∈ authorityKeywords kind ↔ ∃ decoder, (keyword, decoder) ∈ authorityDecoders kind := by
  rw [authorityKeywords, authorityDecoders]
  split
  · simp [exists_or]
  · simp [exists_or]

theorem mem_allDecoders {kind : Kind} {entry : String × Decoder}
    (member : entry ∈ authorityDecoders kind) :
    entry ∈ [("dir-source", dirSource), ("contact", contact), ("vote-digest", voteDigest)] := by
  rw [authorityDecoders] at member
  split at member
  · exact List.mem_append_left [("vote-digest", voteDigest)] member
  · exact member

theorem readsAuthority_of_valueOf? {kind : Kind} {keyword : String} {decoder : Decoder}
    (member : (keyword, decoder) ∈ authorityDecoders kind) (own : token.keyword = keyword.toList)
    (given : decoder.valueOf? authorityLines token = some value) :
    ∃ line, value = .authorityLine line ∧ ReadsAuthority token line := by
  have all := mem_allDecoders member
  simp only [List.mem_cons, List.not_mem_nil, or_false, Prod.mk.injEq] at all
  rcases all with ⟨rfl, rfl⟩ | ⟨rfl, rfl⟩ | ⟨rfl, rfl⟩
  · exact readsAuthority_of_dirSource own given
  · exact readsAuthority_of_contact own given
  · exact readsAuthority_of_voteDigest own given

theorem mem_fields_of_mem_authorityDecoders {kind : Kind} {keyword : String} {decoder : Decoder}
    (member : (keyword, decoder) ∈ authorityDecoders kind) : authorityLines ∈ decoder.fields := by
  have all := mem_allDecoders member
  simp only [List.mem_cons, List.not_mem_nil, or_false, Prod.mk.injEq] at all
  rcases all with ⟨_, rfl⟩ | ⟨_, rfl⟩ | ⟨_, rfl⟩ <;> exact List.mem_cons_self

theorem rule?_of_mem_authorityDecoders (family : grammar ∈ grammars) {keyword : String}
    {decoder : Decoder} (member : (keyword, decoder) ∈ authorityDecoders grammar.kind) :
    grammar.rule? keyword.toList = some (.each keyword decoder) := by
  simp only [grammars, List.mem_cons, List.not_mem_nil, or_false] at family
  rcases family with rfl | rfl | rfl
  · simp only [authorityDecoders, consensusGrammar, reduceCtorEq, ↓reduceIte, List.mem_cons,
      Prod.mk.injEq, List.not_mem_nil, or_false] at member
    rcases member with ⟨rfl, rfl⟩ | ⟨rfl, rfl⟩ | ⟨rfl, rfl⟩ <;> rfl
  · simp only [authorityDecoders, consensusGrammar, reduceCtorEq, ↓reduceIte, List.mem_cons,
      Prod.mk.injEq, List.not_mem_nil, or_false] at member
    rcases member with ⟨rfl, rfl⟩ | ⟨rfl, rfl⟩ | ⟨rfl, rfl⟩ <;> rfl
  · simp only [authorityDecoders, voteGrammar, ↓reduceIte, List.mem_cons, Prod.mk.injEq,
      List.not_mem_nil, or_false] at member
    rcases member with ⟨rfl, rfl⟩ | ⟨rfl, rfl⟩ <;> rfl

theorem keyword_of_mem_authorityLines (family : grammar ∈ grammars) {rule : FieldRule}
    (member : rule ∈ grammar.rules) (own : authorityLines ∈ rule.decoder.fields) :
    rule.keyword ∈ (authorityKeywords grammar.kind).map String.toList := by
  have table : ∀ grammar ∈ grammars, ∀ rule ∈ grammar.rules,
      authorityLines ∈ rule.decoder.fields →
        rule.keyword ∈ (authorityKeywords grammar.kind).map String.toList := by decide
  exact table grammar family rule member own

/-- The lines that are grouped into sections are those of the document, one for each. -/
theorem exists_authorityLines (member : grammar ∈ Registry.standard) (family : grammar ∈ grammars)
    {tokens : List Token} {record : Record} (acceptance : grammar.Acceptance tokens record) :
    ∃ lines sources,
      List.Forall₂ ReadsAuthority
        (tokens.filter fun token =>
          ((authorityKeywords grammar.kind).map String.toList).contains token.keyword) lines ∧
        DirSource.sections lines = .ok sources ∧
          record.find? sectionsField = some (.list (sources.map .source)) := by
  have orderly := Registry.isOrderly_of_mem_standard member
  obtain ⟨sources, grouped, found⟩ := exists_sections member family acceptance
  rw [List.filterMap_filterMap] at grouped
  refine ⟨_, sources, ?_, grouped, found⟩
  have reads : ∀ token ∈ tokens,
      ((authorityKeywords grammar.kind).map String.toList).contains token.keyword = true →
        ∃ line, (grammar.valueOf? authorityLines token).bind Value.authorityLine? = some line ∧
          ReadsAuthority token line := by
    intro token inside chosen
    obtain ⟨keyword, own, same⟩ := List.mem_map.mp (List.contains_iff_mem.mp chosen)
    obtain ⟨decoder, known⟩ := mem_authorityKeywords_iff.mp own
    have ruled : grammar.rule? token.keyword = some (.each keyword decoder) := by
      rw [← same]
      exact rule?_of_mem_authorityDecoders family known
    obtain ⟨value, given⟩ := Grammar.exists_valueOf? orderly acceptance.decoded inside ruled
      (mem_fields_of_mem_authorityDecoders known)
    have read : decoder.valueOf? authorityLines token = some value := by
      rw [← given, Grammar.valueOf?_of_rule ruled]
      rfl
    obtain ⟨line, rfl, reads⟩ := readsAuthority_of_valueOf? known same.symm read
    exact ⟨line, by rw [given]; rfl, reads⟩
  have silent : ∀ token ∈ tokens,
      ((authorityKeywords grammar.kind).map String.toList).contains token.keyword = false →
        (grammar.valueOf? authorityLines token).bind Value.authorityLine? = none := by
    intro token _ other
    have none : grammar.valueOf? authorityLines token = none := by
      apply orderly.valueOf?_eq_none
      intro rule found own
      obtain ⟨ruled, same⟩ := orderly.rule?_eq_some_iff.mp found
      have known := keyword_of_mem_authorityLines family ruled own
      rw [same] at known
      exact Bool.eq_false_iff.mp other (List.contains_iff_mem.mpr known)
    rw [none]
    rfl
  have each := forall₂_filterMap
    (fun token inside chosen => (reads token inside chosen).imp fun _ both => both.1) silent
  refine ((List.forall₂_and_left _ _).mpr ⟨fun token inside => inside, each⟩).imp ?_
  rintro token line ⟨inside, given⟩
  obtain ⟨inside, chosen⟩ := List.mem_filter.mp inside
  obtain ⟨other, again, reads⟩ := reads token inside chosen
  cases given.symm.trans again
  exact reads

/-- Sections partition their lines: they exist exactly if every line has a place, hold what their
lines say, and otherwise the first line without a place is reported.  Where naming lines give
nothing that other lines are for, contacts and digests are those of the section or none.  The
sections of an accepted status are made of all its lines for them, in order, and all of these are
such lines. -/
theorem sections_partition :
    (∀ lines : List AuthorityLine,
      ((∃ sources, DirSource.sections lines = .ok sources) ↔ DirSource.IsSound lines) ∧
      (∀ sources, DirSource.sections lines = .ok sources →
        (∃ parts, lines = parts.flatten ∧ List.Forall₂ DirSource.IsSection parts sources) ∧
          sources.flatMap DirSource.raw =
            Utf8.encode (written (lines.map AuthorityLine.line))) ∧
      ∀ violation, DirSource.sections lines = .error violation ↔
        DirSource.FirstOffence [] lines violation) ∧
    (∀ (part : List AuthorityLine) (source : DirSource), DirSource.IsSection part source →
      (∀ line ∈ part, line.IsBare) →
        part.filterMap AuthorityLine.contact? = source.contact.toList ∧
          part.filterMap AuthorityLine.voteDigest? = source.voteDigest.toList) ∧
    (∀ (above : List AuthorityLine) (line : AuthorityLine), (line.offence above).cause =
      if ∃ earlier ∈ above, earlier.IsNaming then "duplicate-keyword" else "illegal-line") ∧
    ∀ (blob : Blob) (range : ByteRange) (grammar : Grammar) (strict : Bool)
      (origin : Option Text) (document : Document), grammar ∈ grammars →
        Document.parse blob range grammar strict origin = .ok document →
          ∃ lines sources,
            List.Forall₂ ReadsAuthority
              (Document.linesOf (blob.slice range) (authorityKeywords grammar.kind)) lines ∧
            (∀ line ∈ lines, line.IsBare) ∧
            DirSource.sections lines = .ok sources ∧
            document.record.find? sectionsField = some (.list (sources.map .source)) := by
  refine ⟨?_, fun part source holds bare => holds.given bare, AuthorityLine.cause_offence, ?_⟩
  · intro lines
    refine ⟨DirSource.exists_sections_iff, ?_, fun violation => DirSource.sections_eq_error_iff⟩
    intro sources grouped
    obtain ⟨parts, rfl, each⟩ := DirSource.exists_parts_of_sections grouped
    exact ⟨⟨parts, rfl, each⟩, DirSource.flatMap_raw each⟩
  · intro blob range grammar strict origin document family parsed
    have known : ∀ grammar ∈ grammars,
        ∀ keyword ∈ (authorityKeywords grammar.kind).map String.toList,
          keyword ∈ grammar.recognized := by decide
    obtain ⟨acceptance⟩ := Document.exists_acceptance_of_parse parsed
    obtain ⟨lines, sources, reads, grouped, found⟩ :=
      exists_authorityLines (Registry.mem_standard_iff.mpr (.inl family)) family acceptance
    rw [Document.filter_recognized (known grammar family)] at reads
    refine ⟨lines, sources, reads, ?_, grouped, found⟩
    exact forall_mem_right_of_forall₂ reads fun _ _ reads => reads.isBare

theorem sections_partition_consensus :
    let bytes := (written ([
        "network-status-version 3", "vote-status consensus", "consensus-method 1",
        "valid-after 2020-01-01 00:00:00", "fresh-until 2020-01-01 01:00:00",
        "valid-until 2020-01-01 02:00:00", "voting-delay 1 1", "known-flags",
        "dir-source a 00000000000000000000000000000000000000aa h 1.2.3.4 1 0", "contact x y",
        "dir-source b 00000000000000000000000000000000000000bb h 1.2.3.4 1 0",
        "vote-digest 00000000000000000000000000000000000000cc", "opt contact z"
      ].map String.toList)).map Ascii.byte
    ∃ grammar ∈ grammars, ∃ document lines sources,
      Document.parse ⟨bytes, none⟩ (Document.wholeRange bytes) grammar true none = .ok document ∧
        List.Forall₂ ReadsAuthority
          (Document.linesOf bytes ["dir-source", "contact", "vote-digest"]) lines ∧
        (Document.linesOf bytes ["dir-source", "contact", "vote-digest"]).map Token.keyword =
          ["dir-source", "contact", "dir-source", "vote-digest", "contact"].map String.toList ∧
        document.record.find? sectionsField = some (.list (sources.map .source)) ∧
        ∃ parts, lines = parts.flatten ∧ List.Forall₂ DirSource.IsSection parts sources := by
  intro bytes
  have accepted : (Document.parse ⟨bytes, none⟩ (Document.wholeRange bytes)
      (consensusGrammar .consensus "Network status consensus (v3)") true none).isOk = true := by
    decide +kernel
  obtain ⟨document, parsed⟩ := exists_of_isOk accepted
  obtain ⟨partition, _, _, collected⟩ := sections_partition
  obtain ⟨lines, sources, reads, bare, grouped, found⟩ :=
    collected _ _ _ _ _ _ List.mem_cons_self parsed
  rw [Document.slice_bytes] at reads
  exact ⟨_, List.mem_cons_self, document, lines, sources, parsed, reads, by decide +kernel, found,
    ((partition lines).2.1 sources grouped).1⟩

end NetworkStatus

end RelayDescriptor
