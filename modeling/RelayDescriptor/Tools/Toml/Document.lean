import RelayDescriptor.Tools.Toml.Value

/-!
# Settings documents

A document in the TOML notation has lines, which give keys their values, and then
blocks.  A block is a heading with the lines after it and with the blocks whose
headings extend its own.  A table is complete with all of these before it is added to
the table around it.
-/

namespace RelayDescriptor

namespace Toml

/-- What follows the rest of a line, which may hold a comment. -/
def endOfLine (text : Text) : Except Flaw Text :=
  match text.dropWhile isGap with
  | [] => .ok []
  | '\n' :: rest => .ok rest
  | '#' :: rest => (comment rest).map fun rest => rest.drop 1
  | _ => .error .invalid

/-- A heading. -/
structure Heading where
  /-- Whether it opens a further table of an array. -/
  isElement : Bool
  key : Key
  deriving Repr, DecidableEq

namespace Heading

/-- The heading that begins a text, without its closing, and what follows. -/
def start : Text → Except Flaw (Heading × Text)
  | '[' :: '[' :: text => do
      let (key, rest) ← keyBefore nestingLimit text
      return (⟨true, key⟩, rest)
  | '[' :: text => do
      let (key, rest) ← keyBefore nestingLimit text
      return (⟨false, key⟩, rest)
  | _ => .error .invalid

/-- The heading that begins a text, and what follows its line. -/
def line (text : Text) : Except Flaw (Heading × Text) := do
  let (heading, rest) ← start text
  let closing := if heading.isElement then [']', ']'] else [']']
  if closing.isPrefixOf rest then
    return (heading, ← endOfLine (rest.drop closing.length))
  else .error .invalid

/-- Whether a heading extends a key by further parts. -/
def isUnder (parts : List Text) (heading : Heading) : Bool :=
  parts.isPrefixOf heading.key.parts && parts.length < heading.key.parts.length

end Heading

/-- Reads the lines before the next heading into a table.  The number limits how many are read. -/
def lines (add : Entries → Text × Node → Except Flaw Entries) :
    Nat → Entries → Text → Except Flaw (Entries × Text)
  | 0, _, _ => .error .invalid
  | steps + 1, entries, text =>
      match text.dropWhile isGap with
      | [] => .ok (entries, [])
      | '\n' :: rest => lines add steps entries rest
      | '#' :: rest => do lines add steps entries ((← comment rest).drop 1)
      | '[' :: rest => .ok (entries, '[' :: rest)
      | line => do
          let (key, rest) ← keyAndSign line
          let (setting, rest) ← value nestingLimit rest
          let rest ← endOfLine rest
          lines add steps (← add entries (key.entry setting)) rest

/-- Adds a table to the table of the block around it.  The parts of a scattered table are compared
when the outer block is complete. -/
def addBlock (entries : Entries) (entry : Text × Node) : Except Flaw Entries :=
  Entries.extend (Entries.add levels false) entries [entry]

/-- Adds an entry to the table of the whole document, where a repeated key is as bad as any other
flaw. -/
def addOutermost (entries : Entries) (entry : Text × Node) : Except Flaw Entries :=
  match Entries.add levels true entries entry with
  | .ok entries => .ok entries
  | .error _ => .error .invalid

mutual

/-- Reads a heading with its lines and the blocks under it.  The first argument of this and of the
following readers bounds the number of steps. -/
def content : Nat → Text → Except Flaw (Heading × Entries × Text)
  | 0, _ => .error .invalid
  | steps + 1, text => do
      let (heading, rest) ← Heading.line text
      let (entries, rest) ← lines (Entries.add levels true) (rest.length + 1) [] rest
      let (entries, rest) ← blocksUnder steps heading.key.parts entries rest
      Entries.settleAll entries
      return (heading, entries, rest)

/-- Reads the blocks whose headings extend a key. -/
def blocksUnder : Nat → List Text → Entries → Text → Except Flaw (Entries × Text)
  | 0, _, _, _ => .error .invalid
  | _ + 1, _, entries, [] => .ok (entries, [])
  | steps + 1, parts, entries, c :: text => do
      let (next, _) ← Heading.start (c :: text)
      if next.isUnder parts then
        let (entry, rest) ← block steps parts (c :: text)
        blocksUnder steps parts (← addBlock entries entry) rest
      else return (entries, c :: text)

/-- Reads a block, and gives what it adds to the table whose key has the given parts.  The tables of
an array that follow one another make one entry unless the first of them implies a table. -/
def block : Nat → List Text → Text → Except Flaw ((Text × Node) × Text)
  | 0, _, _ => .error .invalid
  | steps + 1, outer, text => do
      let (heading, entries, rest) ← content steps text
      match heading.key.parts.drop outer.length with
      | [] => .error .invalid
      | [key] =>
          if heading.isElement then
            let (elements, rest) ← elementsAfter steps heading [entries] rest
            return ((key, .tables elements), rest)
          else return ((key, .table .headed entries), rest)
      | key :: further =>
          let node := if heading.isElement then .tables [entries] else .table .headed entries
          return (nested .implied node key further, rest)

/-- Reads the tables of an array that have the same heading. -/
def elementsAfter : Nat → Heading → List Entries → Text → Except Flaw (List Entries × Text)
  | 0, _, _, _ => .error .invalid
  | _ + 1, _, elements, [] => .ok (elements, [])
  | steps + 1, heading, elements, c :: text => do
      let (next, _) ← Heading.start (c :: text)
      if next = heading then
        let (_, entries, rest) ← content steps (c :: text)
        elementsAfter steps heading (elements ++ [entries]) rest
      else return (elements, c :: text)

end

/-- Reads the blocks of a document.  The first argument bounds their number. -/
def blocks : Nat → Entries → Text → Except Flaw Entries
  | 0, _, _ => .error .invalid
  | _ + 1, entries, [] => .ok entries
  | steps + 1, entries, c :: text => do
      let (entry, rest) ← block (text.length + 5) [] (c :: text)
      blocks steps (← addOutermost entries entry) rest

/-- Reads a document. -/
def document (text : Text) : Except Flaw (OrderedMap Text Setting) := do
  let (entries, rest) ← lines addOutermost (text.length + 1) [] text
  let entries ← blocks (rest.length + 1) entries rest
  Entries.settings levels entries

end Toml

end RelayDescriptor
