import RelayDescriptor.Tools.Toml.Scalar
import RelayDescriptor.Tools.Toml.Table

/-!
# Keys and values of settings documents

A key has parts with points between them.  Lists and tables within brackets may
extend over several lines, with comments, and a comma may follow their last item.
-/

namespace RelayDescriptor

namespace Toml

/-- A key, which has at least one part. -/
structure Key where
  first : Text
  further : List Text
  deriving Repr, DecidableEq

namespace Key

/-- The parts of a key in order. -/
def parts (key : Key) : List Text := key.first :: key.further

end Key

/-- What a node under nested tables adds to the outermost of them. -/
def nested (origin : Origin) (node : Node) : Text → List Text → Text × Node
  | first, [] => (first, node)
  | first, second :: further => (first, .table origin [nested origin node second further])

/-- What a value adds to the table in which its key stands. -/
def Key.entry (key : Key) (setting : Setting) : Text × Node :=
  nested .dotted (.value setting) key.first key.further

/-- Whether a character may stand in a key without quotes. -/
def isKeyCharacter (c : Char) : Bool := c.isAlphanum || c = '-' || c = '_'

/-- A part of a key, and what follows it. -/
def keyPart (text : Text) : Except Flaw (Text × Text) :=
  let text := text.dropWhile isGap
  match text with
  | '"' :: _ | '\'' :: _ =>
      (string false text).map fun (key, rest) => (key, rest.dropWhile isGap)
  | _ =>
      let key := text.takeWhile isKeyCharacter
      if key.isEmpty then .error .invalid
      else .ok (key, (text.dropWhile isKeyCharacter).dropWhile isGap)

/-- A key, and what follows it.  The first argument bounds the number of its parts. -/
def keyBefore : Nat → Text → Except Flaw (Key × Text)
  | 0, _ => .error .invalid
  | limit + 1, text => do
      let (part, rest) ← keyPart text
      match rest with
      | '.' :: rest =>
          let (key, rest) ← keyBefore limit rest
          return (⟨part, key.parts⟩, rest)
      | _ => return (⟨part, []⟩, rest)

/-- A key, the sign of equality after it, and what follows. -/
def keyAndSign (text : Text) : Except Flaw (Key × Text) := do
  match ← keyBefore nestingLimit text with
  | (key, '=' :: rest) => return (key, rest.dropWhile isGap)
  | _ => .error .invalid

/-- What follows a comment, which lasts until the end of its line. -/
def comment (text : Text) : Except Flaw Text :=
  let content := text.takeWhile (· != '\n')
  if content.any isControl then .error .invalid else .ok (text.dropWhile (· != '\n'))

/-- What follows the blanks, line ends and comments within brackets.  The first argument bounds the
number of comments. -/
def wideGap : Nat → Text → Except Flaw Text
  | 0, _ => .error .invalid
  | steps + 1, text =>
      match text.dropWhile fun c => isGap c || c = '\n' with
      | '#' :: rest => do wideGap steps (← comment rest)
      | rest => .ok rest

/-- Reads items with commas between them until a closing bracket, and returns what follows it.  The
last item may have a comma after it.  The bound is on the number of items. -/
def bracketed {σ : Type} (close : Char) (item : σ → Text → Except Flaw (σ × Text)) :
    Nat → σ → Text → Except Flaw (σ × Text)
  | 0, _, _ => .error .invalid
  | steps + 1, state, text => do
      match ← wideGap (text.length + 1) text with
      | [] => .error .invalid
      | c :: rest =>
          if c = close then return (state, rest)
          else
            let (state, rest) ← item state (c :: rest)
            match ← wideGap (rest.length + 1) rest with
            | [] => .error .invalid
            | c :: rest =>
                if c = ',' then bracketed close item steps state rest
                else if c = close then return (state, rest)
                else .error .invalid

/-- Reads a further value of a list, whose last value comes first. -/
def listItem (value : Text → Except Flaw (Setting × Text)) (values : List Setting) (text : Text) :
    Except Flaw (List Setting × Text) :=
  (value text).map fun (setting, rest) => (setting :: values, rest)

/-- Reads a further entry of a table within brackets. -/
def tableItem (value : Text → Except Flaw (Setting × Text)) (entries : Entries) (text : Text) :
    Except Flaw (Entries × Text) := do
  let (key, rest) ← keyAndSign text
  let (setting, rest) ← value rest
  return (← Entries.add levels true entries (key.entry setting), rest)

/-- A value without brackets, and what follows it. -/
def scalar (text : Text) : Except Flaw (Setting × Text) :=
  match text with
  | '"' :: _ | '\'' :: _ =>
      (string true text).map fun (content, rest) => (.text content, rest)
  | 't' :: 'r' :: 'u' :: 'e' :: rest => .ok (.flag true, rest)
  | 'f' :: 'a' :: 'l' :: 's' :: 'e' :: rest => .ok (.flag false, rest)
  | _ =>
      let word := text.takeWhile fun c => !endsNumber c
      if word.head?.any (fun c => c.isDigit || c = '+' || c = '-') ||
          word = "inf".toList || word = "nan".toList then
        numberOrMoment text
      else .error .invalid

/-- A value, and what follows it.  The first argument bounds the number of lists and tables inside
one another. -/
def value : Nat → Text → Except Flaw (Setting × Text)
  | _, [] => .error .invalid
  | limit, c :: rest =>
      if c = '[' then
        match limit with
        | 0 => .error .invalid
        | limit + 1 =>
            (bracketed ']' (listItem (value limit)) (rest.length + 1) [] rest).map
              fun (values, rest) => (.list values.reverse, rest)
      else if c = '\x7b' then
        match limit with
        | 0 => .error .invalid
        | limit + 1 => do
            let (entries, rest) ←
              bracketed '\x7d' (tableItem (value limit)) (rest.length + 1) [] rest
            return (.table (← Entries.settings levels entries), rest)
      else scalar (c :: rest)

end Toml

end RelayDescriptor
