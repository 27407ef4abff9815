import RelayDescriptor.Proofs.Reading.Overlong
import RelayDescriptor.Text.Quoted

/-!
# The notation of JSON

What a JSON text is, told apart from how values are rendered, and what it stands for.  Numbers are
held as they are written and strings as their UTF-16 units.  Outside of strings there is no capital
letter but the one of an exponent, so a name such as that of infinity is not part of the notation.
-/

namespace RelayDescriptor

namespace Json

/-- What a test tells of every character of a text. -/
theorem forall_mem_of_all {p : Char → Prop} [DecidablePred p] {text : Text}
    (all : text.all (p ·) = true) : ∀ c ∈ text, p c := by
  simpa using all

/-! ## Numbers -/

/-- Digits with a zero in front only if that is all. -/
structure IsWhole (digits : Text) : Prop where
  unsigned : Numeral.isUnsigned digits = true
  leading : digits = ['0'] ∨ digits.head? ≠ some '0'

/-- What may follow the whole part of a number. -/
inductive IsFraction : Text → Prop
  | absent : IsFraction []
  | present {digits : Text} (unsigned : Numeral.isUnsigned digits = true) :
      IsFraction ('.' :: digits)

/-- What may end a number. -/
inductive IsExponent : Text → Prop
  | absent : IsExponent []
  | present {letter : Char} {sign digits : Text} (letter_mem : letter ∈ ['e', 'E'])
      (sign_mem : sign ∈ [[], ['+'], ['-']]) (unsigned : Numeral.isUnsigned digits = true) :
      IsExponent (letter :: (sign ++ digits))

/-- A number without a sign. -/
inductive IsMagnitude : Text → Prop
  | parts {whole fraction exponent : Text} (isWhole : IsWhole whole)
      (isFraction : IsFraction fraction) (isExponent : IsExponent exponent) :
      IsMagnitude (whole ++ (fraction ++ exponent))

/-- A number. -/
inductive IsNumber : Text → Prop
  | unsigned {magnitude : Text} (isMagnitude : IsMagnitude magnitude) : IsNumber magnitude
  | negative {magnitude : Text} (isMagnitude : IsMagnitude magnitude) : IsNumber ('-' :: magnitude)

/-- A character that numbers are written with. -/
def IsFigure (c : Char) : Prop := c.isDigit = true ∨ c ∈ ['+', '-', '.', 'e', 'E']

theorem isFigure_of_isUnsigned {digits : Text} (unsigned : Numeral.isUnsigned digits = true) :
    ∀ c ∈ digits, IsFigure c := by
  rw [Numeral.isUnsigned, Bool.and_eq_true, List.all_eq_true] at unsigned
  exact fun c member => .inl (unsigned.2 c member)

theorem IsFraction.isFigure {fraction : Text} (isFraction : IsFraction fraction) :
    ∀ c ∈ fraction, IsFigure c := by
  cases isFraction with
  | absent => simp
  | present unsigned =>
      exact List.forall_mem_cons.mpr ⟨.inr (by decide), isFigure_of_isUnsigned unsigned⟩

theorem IsExponent.isFigure {exponent : Text} (isExponent : IsExponent exponent) :
    ∀ c ∈ exponent, IsFigure c := by
  cases isExponent with
  | absent => simp
  | @present letter sign digits letter_mem sign_mem unsigned =>
      have letters : ∀ c ∈ ['e', 'E'], c ∈ ['+', '-', '.', 'e', 'E'] :=
        forall_mem_of_all (by decide)
      have signs : ∀ sign ∈ ([[], ['+'], ['-']] : List Text),
          ∀ c ∈ sign, c ∈ ['+', '-', '.', 'e', 'E'] := by simp
      rw [List.forall_mem_cons, List.forall_mem_append]
      exact ⟨.inr (letters letter letter_mem), fun c member => .inr (signs sign sign_mem c member),
        isFigure_of_isUnsigned unsigned⟩

theorem IsNumber.isFigure {number : Text} (isNumber : IsNumber number) :
    ∀ c ∈ number, IsFigure c := by
  have magnitude {text : Text} (isMagnitude : IsMagnitude text) : ∀ c ∈ text, IsFigure c := by
    obtain ⟨isWhole, isFraction, isExponent⟩ := isMagnitude
    rw [List.forall_mem_append, List.forall_mem_append]
    exact ⟨isFigure_of_isUnsigned isWhole.unsigned, isFraction.isFigure, isExponent.isFigure⟩
  cases isNumber with
  | unsigned isMagnitude => exact magnitude isMagnitude
  | negative isMagnitude =>
      exact List.forall_mem_cons.mpr ⟨.inr (by decide), magnitude isMagnitude⟩

/-! ## Strings -/

/-- The UTF-16 units of a character. -/
def utf16 (c : Char) : List Nat :=
  if c.toNat < 0x10000 then [c.toNat]
  else
    let beyond := c.toNat - 0x10000
    [0xD800 + beyond / 0x400, 0xDC00 + beyond % 0x400]

/-- The characters that stand for a unit behind a backslash. -/
def letterEscapes : List (Char × Nat) :=
  [('"', 0x22), ('\\', 0x5C), ('/', 0x2F), ('b', 0x8), ('f', 0xC), ('n', 0xA), ('r', 0xD),
    ('t', 0x9)]

/-- Hexadecimal digits and the number that they write. -/
inductive IsHexadecimal : Text → Nat → Prop
  | nil : IsHexadecimal [] 0
  | snoc {digits : Text} {n value : Nat} {c : Char} (front : IsHexadecimal digits n)
      (digit : Numeral.hexValue? c = some value) : IsHexadecimal (digits ++ [c]) (n * 16 + value)

/-- What stands between the quotes of a string, and its units. -/
inductive Characters : Text → List Nat → Prop
  | nil : Characters [] []
  | plain {c : Char} {text : Text} {units : List Nat} (visible : 0x20 ≤ c.toNat)
      (noQuote : c ≠ '"') (noBackslash : c ≠ '\\') (rest : Characters text units) :
      Characters (c :: text) (utf16 c ++ units)
  | letter {c : Char} {unit : Nat} {text : Text} {units : List Nat}
      (named : (c, unit) ∈ letterEscapes) (rest : Characters text units) :
      Characters ('\\' :: c :: text) (unit :: units)
  | unit {digits text : Text} {unit : Nat} {units : List Nat} (four : digits.length = 4)
      (hexadecimal : IsHexadecimal digits unit) (rest : Characters text units) :
      Characters ('\\' :: 'u' :: (digits ++ text)) (unit :: units)

theorem Characters.append {left right : Text} {units more : List Nat}
    (first : Characters left units) (second : Characters right more) : Characters (left ++ right) (units ++ more) := by
  induction first with
  | nil => exact second
  | plain visible noQuote noBackslash _ induction =>
      rw [List.append_assoc]
      exact .plain visible noQuote noBackslash induction
  | letter named _ induction => exact .letter named induction
  | unit four hexadecimal _ induction =>
      rw [List.cons_append, List.cons_append, List.append_assoc]
      exact .unit four hexadecimal induction

end Json

/-! ## Texts -/

/-- What a JSON text stands for. -/
inductive JsonTree where
  | null
  | bool (value : Bool)
  | number (digits : Text)
  | string (units : List Nat)
  | array (elements : List JsonTree)
  | object (members : List (List Nat × JsonTree))

/-- What a part of a JSON text stands for: elements and members stand between brackets. -/
inductive JsonPart where
  | value (tree : JsonTree)
  | elements (trees : List JsonTree)
  | members (members : List (List Nat × JsonTree))

namespace Json

/-- White space. -/
def IsSpace (text : Text) : Prop := ∀ c ∈ text, c ∈ [' ', '\t', '\n', '\r']

theorem isSpace_nil : IsSpace [] := List.forall_mem_nil _

/-- A text is a part of a JSON text; a value as a whole is a JSON text. -/
inductive IsWritten : JsonPart → Text → Prop
  | null : IsWritten (.value .null) "null".toList
  | true : IsWritten (.value (.bool true)) "true".toList
  | false : IsWritten (.value (.bool false)) "false".toList
  | number {text : Text} (isNumber : IsNumber text) : IsWritten (.value (.number text)) text
  | string {text : Text} {units : List Nat} (characters : Characters text units) :
      IsWritten (.value (.string units)) ('"' :: (text ++ ['"']))
  | emptyArray {space : Text} (isSpace : IsSpace space) :
      IsWritten (.value (.array [])) ('[' :: (space ++ [']']))
  | array {trees : List JsonTree} {text : Text} (elements : IsWritten (.elements trees) text) :
      IsWritten (.value (.array trees)) ('[' :: (text ++ [']']))
  | emptyObject {space : Text} (isSpace : IsSpace space) :
      IsWritten (.value (.object [])) ('\x7b' :: (space ++ ['\x7d']))
  | object {trees : List (List Nat × JsonTree)} {text : Text}
      (members : IsWritten (.members trees) text) :
      IsWritten (.value (.object trees)) ('\x7b' :: (text ++ ['\x7d']))
  | padded {part : JsonPart} {before text after : Text} (isBefore : IsSpace before)
      (isAfter : IsSpace after) (inner : IsWritten part text) :
      IsWritten part (before ++ (text ++ after))
  | element {tree : JsonTree} {text : Text} (value : IsWritten (.value tree) text) :
      IsWritten (.elements [tree]) text
  | elements {tree : JsonTree} {trees : List JsonTree} {text rest : Text}
      (value : IsWritten (.value tree) text) (elements : IsWritten (.elements trees) rest) :
      IsWritten (.elements (tree :: trees)) (text ++ ',' :: rest)
  | member {units : List Nat} {tree : JsonTree} {key text : Text}
      (name : IsWritten (.value (.string units)) key) (value : IsWritten (.value tree) text) :
      IsWritten (.members [(units, tree)]) (key ++ ':' :: text)
  | members {member : List Nat × JsonTree} {trees : List (List Nat × JsonTree)} {text rest : Text}
      (first : IsWritten (.members [member]) text) (members : IsWritten (.members trees) rest) :
      IsWritten (.members (member :: trees)) (text ++ ',' :: rest)

/-- A text is a JSON text. -/
def IsJson (text : Text) : Prop := ∃ tree, IsWritten (.value tree) text

/-! ## Outside of strings -/

/-- Where a character stands: outside of strings, within a string, or behind a backslash there. -/
inductive Place where
  | outside
  | inside
  | escaped

/-- The characters of a text that stand outside of strings. -/
def bareFrom : Place → Text → Text
  | _, [] => []
  | .outside, c :: rest =>
      if c = '"' then bareFrom .inside rest else c :: bareFrom .outside rest
  | .inside, c :: rest =>
      if c = '"' then bareFrom .outside rest
      else if c = '\\' then bareFrom .escaped rest
      else bareFrom .inside rest
  | .escaped, _ :: rest => bareFrom .inside rest

/-- The characters of a text outside of strings, if it begins there. -/
def bare (text : Text) : Text := bareFrom .outside text

/-- A text that ends outside of strings if it begins there. -/
def IsBalanced (text : Text) : Prop := ∀ rest, bare (text ++ rest) = bare text ++ bare rest

variable {text left right : Text} {units : List Nat} {c : Char}

theorem IsBalanced.append (first : IsBalanced left) (second : IsBalanced right) :
    IsBalanced (left ++ right) := by
  intro rest
  rw [List.append_assoc, first, second, first, List.append_assoc]

theorem bare_append_of_not_mem (plain : '"' ∉ text) (rest : Text) :
    bare (text ++ rest) = text ++ bare rest := by
  induction text with
  | nil => rfl
  | cons c text induction =>
      rw [List.mem_cons, not_or] at plain
      rw [List.cons_append, bare, bareFrom, if_neg (Ne.symm plain.1)]
      exact congrArg (c :: ·) (induction plain.2)

theorem bare_of_not_mem (plain : '"' ∉ text) : bare text = text := by
  have alone := bare_append_of_not_mem plain []
  rwa [List.append_nil, show bare [] = [] from rfl, List.append_nil] at alone

theorem isBalanced_of_not_mem (plain : '"' ∉ text) : IsBalanced text := by
  intro rest
  rw [bare_append_of_not_mem plain, bare_of_not_mem plain]

theorem hexValue?_ne (digit : (Numeral.hexValue? c).isSome = true) : c ≠ '"' ∧ c ≠ '\\' := by
  constructor
  · rintro rfl
    cases digit
  · rintro rfl
    cases digit

theorem IsHexadecimal.isSome {digits : Text} {n : Nat} (hexadecimal : IsHexadecimal digits n) :
    ∀ c ∈ digits, (Numeral.hexValue? c).isSome = true := by
  induction hexadecimal with
  | nil => simp
  | snoc _ digit induction =>
      intro c member
      rcases List.mem_append.mp member with inside | last
      · exact induction c inside
      · rw [List.mem_singleton.mp last, digit]
        rfl

theorem bareFrom_inside_of_plain (plain : ∀ c ∈ text, c ≠ '"' ∧ c ≠ '\\') (rest : Text) :
    bareFrom .inside (text ++ rest) = bareFrom .inside rest := by
  induction text with
  | nil => rfl
  | cons c text induction =>
      obtain ⟨here, later⟩ := List.forall_mem_cons.mp plain
      rw [List.cons_append, bareFrom, if_neg here.1, if_neg here.2]
      exact induction later

theorem Characters.bareFrom_inside (characters : Characters text units) (rest : Text) :
    bareFrom .inside (text ++ rest) = bareFrom .inside rest := by
  induction characters with
  | nil => rfl
  | plain _ noQuote noBackslash _ induction =>
      rw [List.cons_append, bareFrom, if_neg noQuote, if_neg noBackslash, induction]
  | letter _ _ induction => exact induction
  | unit _ hexadecimal _ induction =>
      have digits := fun c member => hexValue?_ne (hexadecimal.isSome c member)
      rw [List.cons_append, List.cons_append, List.append_assoc]
      exact (bareFrom_inside_of_plain digits _).trans induction

/-- A string is passed over as a whole. -/
theorem Characters.bare_quoted_append (characters : Characters text units) (rest : Text) :
    bare ('"' :: (text ++ ['"']) ++ rest) = bare rest := by
  rw [List.cons_append, List.append_assoc]
  exact characters.bareFrom_inside _

theorem Characters.bare_quoted (characters : Characters text units) :
    bare ('"' :: (text ++ ['"'])) = [] := by
  have alone := characters.bare_quoted_append []
  rwa [List.append_nil] at alone

theorem Characters.isBalanced (characters : Characters text units) :
    IsBalanced ('"' :: (text ++ ['"'])) := by
  intro rest
  rw [characters.bare_quoted_append, characters.bare_quoted, List.nil_append]

/-! ## Capital letters -/

/-- A character that is no quote, and no capital letter but that of an exponent. -/
def IsUsual (c : Char) : Prop := c ≠ '"' ∧ (c.isUpper = true → c = 'E')

instance (c : Char) : Decidable (IsUsual c) := inferInstanceAs (Decidable (_ ∧ _))

/-- A text ends outside of strings, and there it has no capital letter but that of an exponent. -/
structure IsPlain (text : Text) : Prop where
  balanced : IsBalanced text
  capital : ∀ c ∈ bare text, c.isUpper = true → c = 'E'

theorem IsPlain.append (first : IsPlain left) (second : IsPlain right) :
    IsPlain (left ++ right) where
  balanced := first.balanced.append second.balanced
  capital := by
    intro c member
    rw [first.balanced right] at member
    rcases List.mem_append.mp member with member | member
    · exact first.capital c member
    · exact second.capital c member

theorem isPlain_of_forall (each : ∀ c ∈ text, IsUsual c) : IsPlain text := by
  have plain : '"' ∉ text := fun member => (each _ member).1 rfl
  refine ⟨isBalanced_of_not_mem plain, ?_⟩
  rw [bare_of_not_mem plain]
  exact fun c member => (each c member).2

theorem isPlain_of_isSpace (isSpace : IsSpace text) : IsPlain text := by
  have each : ∀ c ∈ [' ', '\t', '\n', '\r'], IsUsual c := forall_mem_of_all (by decide)
  exact isPlain_of_forall fun c member => each c (isSpace c member)

theorem IsFigure.isUsual (isFigure : IsFigure c) : IsUsual c := by
  rcases isFigure with digit | mark
  · constructor
    · rintro rfl
      cases digit
    · intro upper
      have bounds : 48 ≤ c.toNat ∧ c.toNat ≤ 57 := Char.isDigit_iff_toNat.mp digit
      have above : 65 ≤ c.toNat := (of_decide_eq_true upper).1
      omega
  · have each : ∀ c ∈ ['+', '-', '.', 'e', 'E'], IsUsual c := forall_mem_of_all (by decide)
    exact each c mark

theorem IsNumber.isPlain (isNumber : IsNumber text) : IsPlain text :=
  isPlain_of_forall fun c member => (isNumber.isFigure c member).isUsual

theorem isPlain_between {opening closing : Char} (first : IsPlain [opening]) (inner : IsPlain text)
    (last : IsPlain [closing]) : IsPlain (opening :: (text ++ [closing])) :=
  first.append (inner.append last)

theorem isPlain_separated {mark : Char} (first : IsPlain left) (between : IsPlain [mark])
    (second : IsPlain right) : IsPlain (left ++ mark :: right) :=
  first.append (between.append second)

/-- Whatever is written, part by part, is plain. -/
theorem IsWritten.isPlain {part : JsonPart} (written : IsWritten part text) : IsPlain text := by
  have each : ∀ c ∈ ['[', ']', '\x7b', '\x7d', ',', ':'], IsUsual c :=
    forall_mem_of_all (by decide)
  have mark := fun c member => isPlain_of_forall (List.forall_mem_singleton.mpr (each c member))
  induction written with
  | null | true | false => exact isPlain_of_forall (forall_mem_of_all (by decide))
  | number isNumber => exact isNumber.isPlain
  | string characters =>
      refine ⟨characters.isBalanced, ?_⟩
      rw [characters.bare_quoted]
      simp
  | emptyArray isSpace | emptyObject isSpace =>
      exact isPlain_between (mark _ (by simp)) (isPlain_of_isSpace isSpace) (mark _ (by simp))
  | array _ induction | object _ induction =>
      exact isPlain_between (mark _ (by simp)) induction (mark _ (by simp))
  | padded isBefore isAfter _ induction =>
      exact (isPlain_of_isSpace isBefore).append (induction.append (isPlain_of_isSpace isAfter))
  | element _ induction => exact induction
  | elements _ _ first second | member _ _ first second | members _ _ first second =>
      exact isPlain_separated first (mark _ (by simp)) second

end Json

end RelayDescriptor
