import RelayDescriptor.Proofs.Ranges.Concatenation
import RelayDescriptor.Proofs.Reading.Parsing
import RelayDescriptor.Proofs.Text.Encoding

/-!
# Certificates that give only a version

A key certificate has its version on its first line.  Where the version is a numeral
with too many digits, the lines of the certificate are valid, and reading gets to the
numeral and no further.
-/

namespace RelayDescriptor

namespace KeyCertificate

open Document

variable {version : Text} {grammar : Grammar}

/-- The keyword of the first line. -/
def versionKeyword : Text := "dir-key-certificate-version".toList

/-- The first line of a certificate with a version. -/
def versionLine (version : Text) : Text := versionKeyword ++ ' ' :: version

/-- The token of the first line. -/
def versionToken (version : Text) : Token :=
  ⟨versionKeyword, [version], versionLine version, false⟩

/-- The lines that have to follow, without arguments. -/
def bareLines : Text :=
  ("fingerprint\ndir-key-published\ndir-key-expires\ndir-identity-key\ndir-signing-key\n" ++
    "dir-key-certification\n").toList

/-- The tokens of the lines that have to follow. -/
def bareTokens : List Token :=
  [
    "fingerprint", "dir-key-published", "dir-key-expires", "dir-identity-key", "dir-signing-key",
    "dir-key-certification"
  ].map fun keyword => ⟨keyword.toList, [], keyword.toList, false⟩

/-- A certificate that gives nothing but its version. -/
def bareText (version : Text) : Text := versionLine version ++ '\n' :: bareLines

theorem fields_versionLine (unsigned : Numeral.isUnsigned version = true) :
    fields (versionLine version) = [versionKeyword, version] := by
  have noSpace : ' ' ∉ version := Numeral.not_mem_of_isUnsigned unsigned rfl
  have nonempty : version.isEmpty = false := by
    rw [Numeral.isUnsigned, Bool.and_eq_true, Bool.not_eq_true'] at unsigned
    exact unsigned.1
  rw [fields, versionLine, Text.pieces_append_cons (by decide), Text.pieces_of_not_mem noSpace]
  simp [Text.dropEmptyEnd, nonempty]

theorem tokenize_versionLine (unsigned : Numeral.isUnsigned version = true) :
    tokenize (versionLine version) = .item (.token (versionToken version)) := by
  have cut : itemOf false (versionLine version) (versionLine version) =
      .token (versionToken version) := by
    rw [itemOf, fields_versionLine unsigned]
    rfl
  exact congrArg LineItem.item cut

theorem items_bareLines : Scan.items (lines bareLines) = bareTokens.map .token := by decide

theorem not_mem_versionLine (unsigned : Numeral.isUnsigned version = true) {c : Char}
    (other : c.isDigit = false) (absent : c ∉ versionKeyword ++ [' ']) :
    c ∉ versionLine version := by
  intro member
  rw [versionLine, List.append_cons, List.mem_append] at member
  rcases member with inKeyword | inVersion
  · exact absent inKeyword
  · exact Numeral.not_mem_of_isUnsigned unsigned other inVersion

theorem isAscii_versionLine (unsigned : Numeral.isUnsigned version = true) :
    ∀ c ∈ versionLine version, Ascii.isAscii c = true := by
  have keyword : ∀ c ∈ versionKeyword ++ [' '], Ascii.isAscii c = true :=
    List.all_eq_true.mp (by decide)
  intro c member
  rw [versionLine, List.append_cons, List.mem_append] at member
  exact member.elim (keyword c) (Numeral.isAscii_of_isUnsigned unsigned c)

theorem isAscii_bareText (unsigned : Numeral.isUnsigned version = true) :
    ∀ c ∈ bareText version, Ascii.isAscii c = true := by
  have body : ∀ c ∈ '\n' :: bareLines, Ascii.isAscii c = true :=
    List.all_eq_true.mp (by decide)
  intro c member
  exact (List.mem_append.mp member).elim (isAscii_versionLine unsigned c) (body c)

theorem parts_bareText (unsigned : Numeral.isUnsigned version = true) :
    parts ((bareText version).map Ascii.byte) =
      ([], versionLine version :: lines bareLines) := by
  have noFeed := not_mem_versionLine (c := '\n') unsigned rfl (by decide)
  have noReturn := not_mem_versionLine (c := '\r') unsigned rfl (by decide)
  rw [parts, Utf8.decode_of_isAscii (isAscii_bareText unsigned), bareText,
    lines_append_cons noFeed noReturn]
  rfl

/-- A certificate whose version is a numeral has all its lines, whatever the numeral is. -/
theorem validated_bareText (member : grammar ∈ grammars) (strict : Bool)
    (unsigned : Numeral.isUnsigned version = true) :
    validated grammar strict ((bareText version).map Ascii.byte) =
      .ok ⟨versionToken version :: bareTokens,
        keywordCounts (versionToken version :: bareTokens), []⟩ := by
  have items : Scan.items (versionLine version :: lines bareLines) =
      .token (versionToken version) :: bareTokens.map .token := by
    rw [← items_bareLines]
    simp only [Scan.items, Scan.events, Scan.eventsFrom, tokenize_versionLine unsigned]
    rfl
  rw [validated, parts_bareText unsigned, items]
  obtain rfl := List.mem_singleton.mp member
  refine LineRules.validate_eq_ok_iff.mpr ⟨?_, rfl⟩
  cases strict with
  | false => rfl
  | true => rfl

theorem values_version (unsigned : Numeral.isUnsigned version = true)
    (many : Numeral.digitLimit < version.length) :
    KeyCertificate.version.values (versionToken version) =
      .error (.interrupted (.digitLimit version.length)) := by
  have failed : integer (.atLeast 0) (versionLine version) version =
      .error (.interrupted (.digitLimit version.length)) := by
    rw [integer, if_pos (Numeral.isSigned_of_isUnsigned unsigned),
      readInteger_of_isUnsigned unsigned many]
  show Except.map _ (Except.bind (integer (.atLeast 0) (versionLine version) version) _) = _
  rw [failed]
  rfl

/-- Reading the certificate gets to the numeral. -/
theorem reachesOverlong_bareText (member : grammar ∈ grammars) (strict : Bool)
    (unsigned : Numeral.isUnsigned version = true) (many : Numeral.digitLimit < version.length) :
    grammar.ReachesOverlong strict ((bareText version).map Ascii.byte) version.length := by
  have valid := validated_bareText member strict unsigned
  obtain rfl := List.mem_singleton.mp member
  have failed := values_version unsigned many
  exact ⟨_, [], versionToken version, bareTokens, [], _, valid, rfl, rfl, rfl, failed⟩

theorem isDocument_bareText (unsigned : Numeral.isUnsigned version = true) :
    IsDocument (versionKeyword.map Ascii.byte) (spaced (versionKeyword.map Ascii.byte))
      ((bareText version).map Ascii.byte) := by
  have noFeed : lineFeed ∉ (versionLine version).map Ascii.byte :=
    lineFeed_not_mem_of_text (isAscii_versionLine unsigned)
      (not_mem_versionLine unsigned rfl (by decide))
  have split : (bareText version).map Ascii.byte =
      ((versionLine version).map Ascii.byte ++ [lineFeed]) ++ bareLines.map Ascii.byte := by
    rw [bareText, List.map_append, List.append_assoc]
    rfl
  have closed : IsClosed ((versionLine version).map Ascii.byte ++ [lineFeed]) := by
    right
    simp
  have begins : spaced (versionKeyword.map Ascii.byte) <+:
      (versionLine version).map Ascii.byte := by
    rw [versionLine, List.append_cons, List.map_append]
    exact List.prefix_append _ _
  have first := begins.trans (List.prefix_append _ [lineFeed])
  refine ⟨[], _, byteLines (bareLines.map Ascii.byte), ?_, by simp, first, by decide⟩
  rw [split, byteLines_append closed, byteLines_concat noFeed]
  rfl

/-- The certificate is one document. -/
theorem documentRanges_bareText {blob : Blob} (unsigned : Numeral.isUnsigned version = true)
    (data : blob.data = (bareText version).map Ascii.byte) :
    blob.documentRanges versionKeyword = .ok [⟨0, blob.data.length, Nat.zero_le _⟩] := by
  have back : BackToBack (versionKeyword.map Ascii.byte) (spaced (versionKeyword.map Ascii.byte))
      [(bareText version).map Ascii.byte] := by
    refine ⟨.inl rfl, ?_, by simp, by simp⟩
    intro document member
    obtain rfl := List.mem_singleton.mp member
    exact isDocument_bareText unsigned
  have ascii : ∀ c ∈ versionKeyword, Ascii.isAscii c = true := List.all_eq_true.mp (by decide)
  have cut := ranges_append_flatten (lineFeed_not_mem_of_text ascii (by decide)) (by decide)
    isGarbage_nil back
  refine Blob.documentRanges_of_isAscii ascii blob ?_
  simpa [consecutive, data] using cut

end KeyCertificate

end RelayDescriptor
