import RelayDescriptor.Report.Style

/-!
# Control sequences

On a terminal a style is written as control sequences before a word and a reset after
it.  Where styles are not wanted, control sequences are taken out of the output, also
those that come from the documents themselves.
-/

namespace RelayDescriptor

namespace Style

/-- The control sequence with a number. -/
def sequence (number : Nat) : Text := escape :: '[' :: (toString number).toList ++ ['m']

/-- The number of a colour. -/
def number : Colour → Nat
  | .red => 31
  | .green => 32
  | .yellow => 33

/-- The control sequences before a word. -/
def opening (style : Style) : Text :=
  ((style.colour.map fun colour => sequence (number colour)).getD []) ++
    (if style.bold then sequence 1 else []) ++ (if style.underlined then sequence 4 else [])

/-- A word with the control sequences of a style. -/
def onTerminal (style : Style) (word : Text) : Text := style.opening ++ word ++ sequence 0

end Style

namespace ControlSequence

/-- Whether a character lies in a range of codes. -/
def inRange (first last : Nat) (c : Char) : Bool := first ≤ c.toNat && c.toNat ≤ last

/-- Whether a character is a parameter of a control sequence: a digit or one of `:;<=>?`. -/
def isParameter : Char → Bool := inRange 0x30 0x3F

/-- Whether a character may follow the parameters: a space or one of the marks before the digits. -/
def isIntermediate : Char → Bool := inRange 0x20 0x2F

/-- Whether a character ends a control sequence: a letter or a mark beside the letters. -/
def isFinal : Char → Bool := inRange 0x40 0x7E

/-- The number of characters of the control sequence with which a text begins.  After the escape and
the bracket come parameters, then intermediate characters, then the final one. -/
def length? : Text → Option Nat
  | escape :: '[' :: text =>
      if escape = Style.escape then
        let parameters := text.takeWhile isParameter
        let rest := text.dropWhile isParameter
        let intermediates := rest.takeWhile isIntermediate
        match rest.dropWhile isIntermediate with
        | final :: _ =>
            if isFinal final then some (parameters.length + intermediates.length + 3) else none
        | [] => none
      else none
  | _ => none

/-- Takes out control sequences.  The counter holds the characters of the current one that are
still to be passed over. -/
def stripFrom : Nat → Text → Text
  | _, [] => []
  | passed + 1, _ :: text => stripFrom passed text
  | 0, c :: text =>
      match length? (c :: text) with
      | some length => stripFrom (length - 1) text
      | none => c :: stripFrom 0 text

/-- A text without its control sequences. -/
def strip (text : Text) : Text := stripFrom 0 text

end ControlSequence

end RelayDescriptor
