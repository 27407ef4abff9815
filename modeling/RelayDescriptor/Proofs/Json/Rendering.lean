import Mathlib.Algebra.Group.Nat.Defs
import RelayDescriptor.Json.Basic
import RelayDescriptor.Proofs.Json.Numbers

/-!
# Rendered JSON

The text of a value is JSON exactly if all floating-point numbers within the value are finite.
Whatever the numbers are, the text is printable ASCII in lines, and all that is written of them
stands outside of strings.
-/

namespace RelayDescriptor

namespace Json

mutual

/-- What the text of a value stands for. -/
def tree : Json → JsonTree
  | .null => .null
  | .bool value => .bool value
  | .integer n => .number (toString n).toList
  | .real number => .number (numbers.text number)
  | .text content => .string (content.flatMap utf16)
  | .array elements => .array (elementTrees elements)
  | .object members => .object (memberTrees members)

/-- What the texts of the elements of an array stand for. -/
def elementTrees : List Json → List JsonTree
  | [] => []
  | element :: elements => tree element :: elementTrees elements

/-- What the texts of the members of an object stand for. -/
def memberTrees : List (Text × Json) → List (List Nat × JsonTree)
  | [] => []
  | (key, value) :: members => (key.flatMap utf16, tree value) :: memberTrees members

end

mutual

/-- The floating-point numbers in a value. -/
def reals : Json → List Binary64
  | .real number => [number]
  | .array elements => elementReals elements
  | .object members => memberReals members
  | .null | .bool _ | .integer _ | .text _ => []

/-- The floating-point numbers in the elements of an array. -/
def elementReals : List Json → List Binary64
  | [] => []
  | element :: elements => reals element ++ elementReals elements

/-- The floating-point numbers in the members of an object. -/
def memberReals : List (Text × Json) → List Binary64
  | [] => []
  | (_, value) :: members => reals value ++ memberReals members

end

theorem elementTrees_eq_map (elements : List Json) : elementTrees elements = elements.map tree := by
  induction elements with
  | nil => rfl
  | cons element elements induction => rw [elementTrees, induction, List.map_cons]

theorem elementReals_eq_flatMap (elements : List Json) :
    elementReals elements = elements.flatMap reals := by
  induction elements with
  | nil => rfl
  | cons element elements induction => rw [elementReals, induction, List.flatMap_cons]

/-- All floating-point numbers in a value are finite. -/
def IsFinite (json : Json) : Prop := ∀ number ∈ json.reals, number.IsFinite

/-! ## Strings -/

theorem isHexadecimal_hexDigits {width n : Nat} (small : n < 16 ^ width) :
    IsHexadecimal (hexDigits width n) n := by
  induction width generalizing n with
  | zero =>
      obtain rfl : n = 0 := Nat.lt_one_iff.mp small
      exact .nil
  | succ width induction =>
      have digit : ∀ d < 16, Numeral.hexValue? (hexDigit d) = some d := by decide
      have front := induction (n := n / 16) (Nat.div_lt_of_lt_mul (by rwa [← Nat.pow_succ']))
      have parts := front.snoc (digit (n % 16) (Nat.mod_lt n (by decide)))
      rwa [Nat.div_add_mod'] at parts

theorem length_hexDigits (width n : Nat) : (hexDigits width n).length = width := by
  induction width generalizing n with
  | zero => rfl
  | succ width induction => rw [hexDigits, List.length_append, induction, List.length_singleton]

theorem characters_unitEscape {unit : Nat} (small : unit < 0x10000) :
    Characters (unitEscape unit) [unit] := by
  have escape := Characters.unit (length_hexDigits 4 unit) (isHexadecimal_hexDigits small) .nil
  rwa [List.append_nil] at escape

theorem characters_codeEscape (c : Char) : Characters (codeEscape c.toNat) (utf16 c) := by
  have valid : c.toNat < 0xD800 ∨ 0xDFFF < c.toNat ∧ c.toNat < 0x110000 := c.valid
  rw [codeEscape, utf16]
  split
  next small => exact characters_unitEscape small
  next =>
    have high : 0xD800 + (c.toNat - 0x10000) / 0x400 < 0x10000 := by omega
    have low : 0xDC00 + (c.toNat - 0x10000) % 0x400 < 0x10000 := by omega
    exact (characters_unitEscape high).append (characters_unitEscape low)

theorem characters_character (c : Char) : Characters (character c) (utf16 c) := by
  have letter {d : Char} {unit : Nat} (named : (d, unit) ∈ letterEscapes) :
      Characters ['\\', d] [unit] := .letter named .nil
  rw [character.eq_def]
  split
  iterate 7 exact letter (by decide)
  next noQuote noBackslash _ _ _ _ _ =>
    split
    next printable => simpa using Characters.plain printable.1 noQuote noBackslash .nil
    next => exact characters_codeEscape c

/-- A string is written with its UTF-16 units. -/
theorem characters_flatMap (content : Text) :
    Characters (content.flatMap character) (content.flatMap utf16) := by
  induction content with
  | nil => exact .nil
  | cons c content induction => exact (characters_character c).append induction

theorem isWritten_string (content : Text) :
    IsWritten (.value (.string (content.flatMap utf16))) (string content) :=
  .string (characters_flatMap content)

/-! ## Values -/

/-- White space is blanks and line feeds. -/
structure Spacing.IsBlank (spacing : Spacing) : Prop where
  opening : ∀ level, ∀ c ∈ spacing.opening level, c = ' ' ∨ c = '\n'
  between : ∀ level, ∀ c ∈ spacing.between level, c = ' ' ∨ c = '\n'
  closing : ∀ level, ∀ c ∈ spacing.closing level, c = ' ' ∨ c = '\n'

theorem eq_of_mem_lineBreak {level : Nat} : ∀ c ∈ lineBreak level, c = ' ' ∨ c = '\n' := by
  intro c member
  rcases List.mem_cons.mp member with rfl | member
  · exact .inr rfl
  · exact .inl (List.eq_of_mem_replicate member)

theorem isBlank_indented : Spacing.indented.IsBlank where
  opening := fun _ => eq_of_mem_lineBreak
  between := fun _ => eq_of_mem_lineBreak
  closing := fun _ => eq_of_mem_lineBreak

theorem isSpace_of_forall {text : Text} (blank : ∀ c ∈ text, c = ' ' ∨ c = '\n') :
    IsSpace text := by
  intro c member
  rcases blank c member with rfl | rfl <;> decide

variable {spacing : Spacing}

theorem IsWritten.behind {part : JsonPart} {before text : Text} (written : IsWritten part text)
    (isBefore : IsSpace before) : IsWritten part (before ++ text) := by
  have padded := written.padded isBefore isSpace_nil
  rwa [List.append_nil] at padded

theorem isWritten_member (key : Text) {tree : JsonTree} {text : Text}
    (value : IsWritten (.value tree) text) :
    IsWritten (.members [(key.flatMap utf16, tree)]) (string key ++ ':' :: ' ' :: text) := by
  have blank : IsSpace [' '] := by simp [IsSpace]
  exact (isWritten_string key).member (value.behind blank)

mutual

/-- A value without infinite numbers is written as what it stands for. -/
theorem isWritten_textAt (blank : spacing.IsBlank) (level : Nat) :
    ∀ json : Json, (∀ number ∈ json.reals, number.IsFinite) →
      IsWritten (.value json.tree) (textAt spacing level json)
  | .null, _ => .null
  | .bool true, _ => .true
  | .bool false, _ => .false
  | .integer n, _ => .number (isNumber_toString n)
  | .real number, finite => .number (isNumber_text numbers (finite number List.mem_cons_self))
  | .text content, _ => isWritten_string content
  | .array [], _ => .emptyArray isSpace_nil
  | .array (element :: elements), finite => by
      have inner := (isWritten_elementsText blank level (element :: elements)
        (List.cons_ne_nil _ _) finite).padded
        (isSpace_of_forall (blank.opening level)) (isSpace_of_forall (blank.closing level))
      simpa [textAt, tree] using IsWritten.array inner
  | .object [], _ => .emptyObject isSpace_nil
  | .object (member :: members), finite => by
      have inner := (isWritten_membersText blank level (member :: members)
        (List.cons_ne_nil _ _) finite).padded
        (isSpace_of_forall (blank.opening level)) (isSpace_of_forall (blank.closing level))
      simpa [textAt, tree] using IsWritten.object inner

theorem isWritten_elementsText (blank : spacing.IsBlank) (level : Nat) :
    ∀ elements : List Json, elements ≠ [] → (∀ number ∈ elementReals elements, number.IsFinite) →
      IsWritten (.elements (elementTrees elements)) (elementsText spacing level elements)
  | [], nonempty, _ => absurd rfl nonempty
  | [element], _, finite =>
      .element (isWritten_textAt blank (level + 1) element (List.forall_mem_append.mp finite).1)
  | element :: next :: elements, _, finite => by
      obtain ⟨here, later⟩ := List.forall_mem_append.mp finite
      have first := isWritten_textAt blank (level + 1) element here
      have rest := (isWritten_elementsText blank level (next :: elements) (List.cons_ne_nil _ _)
        later).behind (isSpace_of_forall (blank.between level))
      simpa [elementsText, elementTrees] using first.elements rest

theorem isWritten_membersText (blank : spacing.IsBlank) (level : Nat) :
    ∀ members : List (Text × Json), members ≠ [] →
      (∀ number ∈ memberReals members, number.IsFinite) →
        IsWritten (.members (memberTrees members)) (membersText spacing level members)
  | [], nonempty, _ => absurd rfl nonempty
  | [(key, value)], _, finite =>
      isWritten_member key
        (isWritten_textAt blank (level + 1) value (List.forall_mem_append.mp finite).1)
  | (key, value) :: next :: members, _, finite => by
      obtain ⟨here, later⟩ := List.forall_mem_append.mp finite
      have first := isWritten_member key (isWritten_textAt blank (level + 1) value here)
      have rest := (isWritten_membersText blank level (next :: members) (List.cons_ne_nil _ _)
        later).behind (isSpace_of_forall (blank.between level))
      simpa [membersText, memberTrees] using first.members rest

end

/-! ## What is shown outside of strings -/

/-- A character that is printable ASCII or ends a line. -/
def IsVisible (c : Char) : Prop := c = '\n' ∨ 0x20 ≤ c.toNat ∧ c.toNat ≤ 0x7E

instance (c : Char) : Decidable (IsVisible c) := inferInstanceAs (Decidable (_ ∨ _))

/-- A visible text ends outside of strings, and shows floating-point numbers there. -/
structure Shows (text : Text) (shown : List Binary64) : Prop where
  visible : ∀ c ∈ text, IsVisible c
  balanced : IsBalanced text
  exposed : ∀ number ∈ shown, numbers.text number ⊆ bare text

theorem Shows.append {left right : Text} {first second : List Binary64} (before : Shows left first)
    (after : Shows right second) : Shows (left ++ right) (first ++ second) where
  visible := List.forall_mem_append.mpr ⟨before.visible, after.visible⟩
  balanced := before.balanced.append after.balanced
  exposed := by
    rw [before.balanced right]
    rw [List.forall_mem_append]
    constructor
    · intro number member
      exact List.subset_append_of_subset_left _ (before.exposed number member)
    · intro number member
      exact List.subset_append_of_subset_right _ (after.exposed number member)

/-- A text without quotes shows whatever it is the text of. -/
theorem shows_of_forall {text : Text} {shown : List Binary64}
    (each : ∀ c ∈ text, IsVisible c ∧ c ≠ '"')
    (texts : ∀ number ∈ shown, numbers.text number = text) : Shows text shown := by
  have plain : '"' ∉ text := fun member => (each _ member).2 rfl
  refine ⟨fun c member => (each c member).1, isBalanced_of_not_mem plain, ?_⟩
  intro number member
  rw [bare_of_not_mem plain, texts number member]
  exact List.Subset.refl text

theorem shows_plain {text : Text} (each : ∀ c ∈ text, IsVisible c ∧ c ≠ '"') : Shows text [] :=
  shows_of_forall each (by simp)

theorem shows_of_all (text : Text)
    (all : text.all (fun c => IsVisible c ∧ c ≠ '"') = true) : Shows text [] :=
  shows_plain (forall_mem_of_all all)

theorem shows_of_blank {text : Text} (blank : ∀ c ∈ text, c = ' ' ∨ c = '\n') : Shows text [] := by
  apply shows_plain
  intro c member
  rcases blank c member with rfl | rfl <;> decide

theorem isVisible_of_mem_hexDigits {width n : Nat} : ∀ c ∈ hexDigits width n, IsVisible c := by
  have digit : ∀ d < 16, IsVisible (hexDigit d) := by decide
  induction width generalizing n with
  | zero => simp [hexDigits]
  | succ width induction =>
      rw [hexDigits, List.forall_mem_append]
      exact ⟨induction, by simpa using digit (n % 16) (Nat.mod_lt n (by decide))⟩

theorem isVisible_of_mem_unitEscape {unit : Nat} : ∀ c ∈ unitEscape unit, IsVisible c := by
  rw [unitEscape, List.forall_mem_cons, List.forall_mem_cons]
  exact ⟨by decide, by decide, isVisible_of_mem_hexDigits⟩

theorem isVisible_of_mem_character {d : Char} : ∀ c ∈ character d, IsVisible c := by
  rw [character.eq_def]
  split
  iterate 7 exact forall_mem_of_all (by decide)
  next =>
    split
    next printable => simpa using .inr printable
    next =>
      rw [codeEscape]
      split
      · exact isVisible_of_mem_unitEscape
      · exact List.forall_mem_append.mpr ⟨isVisible_of_mem_unitEscape, isVisible_of_mem_unitEscape⟩

theorem shows_string (content : Text) : Shows (string content) [] where
  visible := by
    rw [string, List.cons_append, List.forall_mem_cons, List.forall_mem_append]
    refine ⟨by decide, ?_, List.forall_mem_singleton.mpr (by decide)⟩
    intro c member
    obtain ⟨d, _, inside⟩ := List.mem_flatMap.mp member
    exact isVisible_of_mem_character c inside
  balanced := (characters_flatMap content).isBalanced
  exposed := by simp

theorem IsFigure.isVisible {c : Char} (isFigure : IsFigure c) : IsVisible c := by
  rcases isFigure with digit | mark
  · have bounds : 48 ≤ c.toNat ∧ c.toNat ≤ 57 := Char.isDigit_iff_toNat.mp digit
    exact .inr ⟨by omega, by omega⟩
  · have each : ∀ c ∈ ['+', '-', '.', 'e', 'E'], IsVisible c := forall_mem_of_all (by decide)
    exact each c mark

theorem IsNumber.forall_mem {text : Text} (isNumber : IsNumber text) :
    ∀ c ∈ text, IsVisible c ∧ c ≠ '"' := by
  intro c member
  have isFigure := isNumber.isFigure c member
  exact ⟨isFigure.isVisible, isFigure.isUsual.1⟩

theorem shows_number (number : Binary64) : Shows (numbers.text number) [number] := by
  refine shows_of_forall ?_ (by simp)
  obtain ⟨negative, mantissa, exponent⟩ | negative | _ := number
  · have finite : Binary64.IsFinite (.finite negative mantissa exponent) := trivial
    exact (isNumber_text numbers finite).forall_mem
  · cases negative <;> exact forall_mem_of_all (by decide)
  · exact forall_mem_of_all (by decide)

theorem shows_bracketed {spacing : Spacing} (blank : spacing.IsBlank) (level : Nat)
    {opening closing : Char} {text : Text} {shown : List Binary64}
    (first : IsVisible opening ∧ opening ≠ '"') (inner : Shows text shown)
    (last : IsVisible closing ∧ closing ≠ '"') :
    Shows (opening :: spacing.opening level ++ text ++ spacing.closing level ++ [closing])
      shown := by
  have before := shows_plain (List.forall_mem_singleton.mpr first)
  have after := shows_plain (List.forall_mem_singleton.mpr last)
  have all := (((before.append (shows_of_blank (blank.opening level))).append inner).append
    (shows_of_blank (blank.closing level))).append after
  simpa using all

theorem shows_separated {spacing : Spacing} (blank : spacing.IsBlank) (level : Nat)
    {left right : Text} {first second : List Binary64} (before : Shows left first)
    (after : Shows right second) :
    Shows (left ++ ',' :: spacing.between level ++ right) (first ++ second) := by
  have comma := shows_of_all [','] (by decide)
  have all := before.append ((comma.append (shows_of_blank (blank.between level))).append after)
  simpa using all

theorem shows_member (key : Text) {text : Text} {shown : List Binary64} (value : Shows text shown) :
    Shows (string key ++ ':' :: ' ' :: text) shown := by
  have colon := shows_of_all [':', ' '] (by decide)
  exact (shows_string key).append (colon.append value)

mutual

/-- The text of a value shows the floating-point numbers in the value. -/
theorem shows_textAt (blank : spacing.IsBlank) (level : Nat) :
    ∀ json : Json, Shows (textAt spacing level json) json.reals
  | .null => shows_of_all "null".toList (by decide)
  | .bool true => shows_of_all "true".toList (by decide)
  | .bool false => shows_of_all "false".toList (by decide)
  | .integer n => shows_plain (isNumber_toString n).forall_mem
  | .real number => shows_number number
  | .text content => shows_string content
  | .array [] => shows_of_all ['[', ']'] (by decide)
  | .array (element :: elements) =>
      shows_bracketed blank level (by decide)
        (shows_elementsText blank level (element :: elements)) (by decide)
  | .object [] => shows_of_all ['\x7b', '\x7d'] (by decide)
  | .object (member :: members) =>
      shows_bracketed blank level (by decide)
        (shows_membersText blank level (member :: members)) (by decide)

theorem shows_elementsText (blank : spacing.IsBlank) (level : Nat) :
    ∀ elements : List Json, Shows (elementsText spacing level elements) (elementReals elements)
  | [] => shows_of_all [] rfl
  | [element] => by
      simpa [elementsText, elementReals] using shows_textAt blank (level + 1) element
  | element :: next :: elements =>
      shows_separated blank level (shows_textAt blank (level + 1) element)
        (shows_elementsText blank level (next :: elements))

theorem shows_membersText (blank : spacing.IsBlank) (level : Nat) :
    ∀ members : List (Text × Json),
      Shows (membersText spacing level members) (memberReals members)
  | [] => shows_of_all [] rfl
  | [(key, value)] => by
      simpa [membersText, memberReals] using
        shows_member key (shows_textAt blank (level + 1) value)
  | (key, value) :: next :: members =>
      shows_separated blank level (shows_member key (shows_textAt blank (level + 1) value))
        (shows_membersText blank level (next :: members))

end

/-- The name of a number that is not finite has a capital letter that no JSON number has. -/
theorem exists_capital {number : Binary64} (infinite : ¬number.IsFinite) :
    ∃ c ∈ numbers.text number, c.isUpper = true ∧ c ≠ 'E' := by
  obtain ⟨negative, mantissa, exponent⟩ | negative | _ := number
  · exact absurd trivial infinite
  · cases negative <;> exact ⟨'I', by decide⟩
  · exact ⟨'N', by decide⟩

/-- A JSON text shows finite numbers only. -/
theorem Shows.isFinite {text : Text} {shown : List Binary64} (shows : Shows text shown)
    (isJson : IsJson text) : ∀ number ∈ shown, number.IsFinite := by
  obtain ⟨tree, written⟩ := isJson
  intro number member
  by_contra infinite
  obtain ⟨c, inside, upper, other⟩ := exists_capital infinite
  exact other (written.isPlain.capital c (shows.exposed number member inside) upper)

end Json

end RelayDescriptor
