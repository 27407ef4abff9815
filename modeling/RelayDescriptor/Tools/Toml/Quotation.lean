import RelayDescriptor.Number.Numeral

/-!
# Strings of settings documents

The strings of the TOML notation, between single or double quotes, on one line or
on several.  Every reader takes the text from where its part begins and returns what
is left after it.
-/

namespace RelayDescriptor

namespace Toml

/-- Why a document cannot be read. -/
inductive Flaw where
  /-- The text is not in the notation. -/
  | invalid
  /-- A table has a key twice. -/
  | repeatedKey (key : Text)
  /-- A heading opens a table that dotted keys have filled. -/
  | redefinition
  deriving Repr, DecidableEq

/-- Whether a character separates words within a line. -/
def isGap (c : Char) : Bool := c = ' ' || c = '\t'

/-- Whether a character must not stand in strings and comments. -/
def isControl (c : Char) : Bool := c.toNat = 0x7F || (c.toNat < 0x20 && c != '\t')

/-- The character with a code of a number of hexadecimal digits. -/
def coded? (width : Nat) (text : Text) : Option (Text × Text) := do
  let digits ← (text.take width).mapM Numeral.hexValue?
  let code := digits.foldl (fun n digit => n * 16 + digit) 0
  if digits.length = width ∧ code.isValidChar then
    some ([Char.ofNat code], text.drop width)
  else none

/-- What an escape stands for. -/
def escape? (multiline : Bool) : Text → Option (Text × Text)
  | [] => none
  | c :: text =>
      if multiline && (isGap c || c = '\n') then
        let blank := fun (c : Char) => isGap c || c = '\n'
        if ((c :: text).takeWhile blank).contains '\n' then some ([], text.dropWhile blank)
        else none
      else
        match c with
        | 'b' => some (['\x08'], text)
        | 't' => some (['\t'], text)
        | 'n' => some (['\n'], text)
        | 'f' => some (['\x0c'], text)
        | 'r' => some (['\r'], text)
        | 'e' => some (['\x1b'], text)
        | '"' => some (['"'], text)
        | '\\' => some (['\\'], text)
        | 'x' => coded? 2 text
        | 'u' => coded? 4 text
        | 'U' => coded? 8 text
        | _ => none

/-- How a string is written. -/
structure StringStyle where
  quote : Char
  /-- Whether escapes are read. -/
  escapes : Bool
  /-- Whether the string is between triple quotes. -/
  multiline : Bool

/-- The content of a string after its opening.  The first argument bounds the number of steps. -/
def stringBody (style : StringStyle) : Nat → Text → Except Flaw (Text × Text)
  | 0, _ | _, [] => .error .invalid
  | steps + 1, c :: text =>
      if c = style.quote then
        if style.multiline then
          let quotes := (c :: text).takeWhile (· = style.quote)
          let rest := (c :: text).dropWhile (· = style.quote)
          if quotes.length < 3 then
            (stringBody style steps rest).map fun (content, rest) => (quotes ++ content, rest)
          else if quotes.length < 6 then .ok (quotes.drop 3, rest)
          else .error .invalid
        else .ok ([], text)
      else if c = '\\' && style.escapes then
        match escape? style.multiline text with
        | none => .error .invalid
        | some (written, rest) =>
            (stringBody style steps rest).map fun (content, rest) => (written ++ content, rest)
      else if isControl c && !(style.multiline && c = '\n') then .error .invalid
      else (stringBody style steps text).map fun (content, rest) => (c :: content, rest)

/-- A string that begins with its opening quote. -/
def string (multilineAllowed : Bool) (text : Text) : Except Flaw (Text × Text) :=
  match text with
  | [] => .error .invalid
  | quote :: rest =>
      let escapes := quote = '"'
      match rest with
      | second :: third :: after =>
          if second = quote && third = quote then
            if multilineAllowed then
              let body := if after.head? = some '\n' then after.drop 1 else after
              stringBody ⟨quote, escapes, true⟩ (body.length + 1) body
            else .error .invalid
          else stringBody ⟨quote, escapes, false⟩ (rest.length + 1) rest
      | _ => stringBody ⟨quote, escapes, false⟩ (rest.length + 1) rest

end Toml

end RelayDescriptor
