import RelayDescriptor.Failure
import RelayDescriptor.Text.Utf8

/-!
# Authority sections

A network status lists its authorities.  Each authority has a section: the line
that names it, and the contact and digest lines that follow.
-/

namespace RelayDescriptor

/-- An authority and the lines of its section. -/
structure DirSource where
  nickname : Text
  identity : Text
  hostname : Text
  address : Text
  dirPort : Int
  orPort : Int
  /-- The contact text of the section. -/
  contact : Option Text
  /-- The digest of the authority's vote. -/
  voteDigest : Option Text
  /-- The lines of the section, each with a line feed. -/
  raw : List UInt8
  deriving Repr, DecidableEq

/-- What a line of a section says. -/
inductive AuthorityContent where
  /-- It names the authority. -/
  | source (source : DirSource)
  | contact (text : Text)
  | voteDigest (digest : Text)
  deriving Repr, DecidableEq

/-- A line of a section. -/
structure AuthorityLine where
  keyword : Text
  content : AuthorityContent
  /-- The whole line. -/
  line : Text
  deriving Repr, DecidableEq

/-- The bytes of a line with its line feed. -/
def lineBytes (line : Text) : List UInt8 := Utf8.encode (line ++ ['\n'])

/-- A section while its lines are collected. -/
structure AuthoritySection where
  /-- What its naming line gives. -/
  source : DirSource
  /-- The contact that another of its lines gives. -/
  contact : Option Text
  /-- The digest of a vote that another of its lines gives. -/
  voteDigest : Option Text
  /-- Its lines so far, each with a line feed. -/
  raw : List UInt8
  deriving Repr, DecidableEq

namespace AuthoritySection

/-- The section that a naming line opens. -/
def opened (source : DirSource) (line : Text) : AuthoritySection :=
  ⟨source, none, none, lineBytes line⟩

/-- The section with one more line, unless it has a line of that sort already. -/
def extend (current : AuthoritySection) (line : AuthorityLine) :
    Except Violation AuthoritySection :=
  let raw := current.raw ++ lineBytes line.line
  match line.content, current.contact, current.voteDigest with
  | .contact text, none, _ => .ok { current with contact := some text, raw }
  | .voteDigest digest, _, none => .ok { current with voteDigest := some digest, raw }
  | _, _, _ => .error (.againForAuthority line.keyword line.line)

/-- The authority with the lines of its section.  What no line has given it keeps. -/
def closed (current : AuthoritySection) : DirSource :=
  { current.source with
    contact := current.contact.or current.source.contact
    voteDigest := current.voteDigest.or current.source.voteDigest
    raw := current.raw }

end AuthoritySection

namespace DirSource

open AuthoritySection (opened)

/-- Collects sections, of which the current one may still grow. -/
def sectionsFrom (current : AuthoritySection) :
    List AuthorityLine → Except Violation (List DirSource)
  | [] => .ok [current.closed]
  | line :: lines =>
      match line.content with
      | .source next => (sectionsFrom (opened next line.line) lines).map (current.closed :: ·)
      | _ => do sectionsFrom (← current.extend line) lines

/-- The sections of a list of lines.  Every line but the naming ones needs a naming line before
it, and no section has two lines of a sort. -/
def sections : List AuthorityLine → Except Violation (List DirSource)
  | [] => .ok []
  | line :: lines =>
      match line.content with
      | .source source => sectionsFrom (opened source line.line) lines
      | _ => .error (.beforeAuthority line.keyword line.line)

end DirSource

end RelayDescriptor
