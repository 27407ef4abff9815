import RelayDescriptor.Proofs.Reading.Utf8Runs
import RelayDescriptor.Proofs.Text.Encoding

/-!
# ASCII characters in decoded bytes

An ASCII character of a decoded text is a byte of its own, at which the bytes may be cut:
what stands before it and behind it is decoded apart.  The null character is left out,
since it also stands where a code is no character.
-/

namespace RelayDescriptor

namespace Utf8

variable {state : Option Pending} {b : UInt8} {bytes front back : List UInt8} {c : Char}
  {before after text : Text}

/-- An ASCII character that is not the null character. -/
def IsMark (c : Char) : Prop := 0 < c.toNat ∧ c.toNat < 0x80

instance (c : Char) : Decidable (IsMark c) := inferInstanceAs (Decidable (_ ∧ _))

theorem isAscii_of_isMark (mark : IsMark c) : Ascii.isAscii c = true := decide_eq_true mark.2

theorem not_isMark_replacement : ¬IsMark replacement := by decide

theorem not_isMark_ofNat {code : Nat} (beyond : 0x80 ≤ code) : ¬IsMark (Char.ofNat code) := by
  rintro ⟨positive, small⟩
  by_cases valid : code.isValidChar
  · have size : (Char.ofNat code).toNat = code := by
      rw [Char.ofNat, dif_pos valid]
      rfl
    omega
  · have zero : Char.ofNat code = Char.ofNat 0 := by
      rw [Char.ofNat, dif_neg valid]
      rfl
    rw [zero] at positive
    exact absurd positive (by decide)

theorem toNat_byte (mark : IsMark c) : (Ascii.byte c).toNat = c.toNat := by
  rw [Ascii.byte, UInt8.toNat_ofNat']
  exact Nat.mod_eq_of_lt (Nat.lt_trans mark.2 (by decide))

theorem start_of_lt (low : b < 0x80) : start b = ([Char.ofNat b.toNat], none) := if_pos low

theorem not_isMark_of_start (high : ¬b < 0x80) (member : c ∈ (start b).1) : ¬IsMark c := by
  rw [start, if_neg high] at member
  split at member
  next => cases member
  next =>
    rw [List.mem_singleton.mp member]
    exact not_isMark_replacement

/-- An ASCII byte ends what stands before it. -/
theorem step_of_lt (reached : IsReached state) (low : b < 0x80) :
    step state b = (finish state ++ [Char.ofNat b.toNat], none) := by
  cases state with
  | none => exact start_of_lt low
  | some pending =>
      have outside : ¬(pending.low ≤ b ∧ b ≤ pending.high) := by
        rintro ⟨least, _⟩
        have beyond := (reached pending rfl).1
        have bound : b.toNat < 0x80 := low
        have least : pending.low.toNat ≤ b.toNat := least
        omega
      rw [step, if_neg outside, start_of_lt low]
      rfl

/-- Other bytes stand for no ASCII characters. -/
theorem not_isMark_of_step (reached : IsReached state) (high : ¬b < 0x80)
    (member : c ∈ (step state b).1) : ¬IsMark c := by
  cases state with
  | none => exact not_isMark_of_start high member
  | some pending =>
      obtain ⟨low, beyond⟩ := reached pending rfl
      rw [step] at member
      split at member
      next within =>
        have least : pending.low.toNat ≤ b.toNat := within.1
        dsimp only at member
        split at member
        next last =>
          rw [if_pos last] at beyond
          rw [List.mem_singleton.mp member]
          exact not_isMark_ofNat (by omega)
        next => cases member
      next =>
        rcases List.mem_cons.mp member with rfl | member
        · exact not_isMark_replacement
        · exact not_isMark_of_start high member

theorem isReached_none : IsReached none := fun _ same => by cases same

theorem decodeFrom_append_cons (reached : IsReached state) (low : b < 0x80)
    (front back : List UInt8) :
    decodeFrom state (front ++ b :: back) =
      decodeFrom state front ++ Char.ofNat b.toNat :: decodeFrom none back := by
  induction front generalizing state with
  | nil =>
      have whole : decodeFrom state (b :: back) =
          (step state b).1 ++ decodeFrom (step state b).2 back := rfl
      rw [List.nil_append, whole, step_of_lt reached low, decodeFrom, List.append_assoc]
      rfl
  | cons first front induction =>
      rw [List.cons_append, decodeFrom, decodeFrom, induction (isReached_step reached first),
        List.append_assoc]

/-- Bytes are decoded apart before and behind an ASCII character. -/
theorem decode_append_cons (mark : IsMark c) (front back : List UInt8) :
    decode (front ++ Ascii.byte c :: back) = decode front ++ c :: decode back := by
  have low : Ascii.byte c < 0x80 := by
    rw [UInt8.lt_iff_toNat_lt, toNat_byte mark]
    exact mark.2
  have same : Char.ofNat (Ascii.byte c).toNat = c := by rw [toNat_byte mark, Char.ofNat_toNat]
  rw [decode, decodeFrom_append_cons isReached_none low, same]
  rfl

theorem byte_ofNat (low : b < 0x80) : Ascii.byte (Char.ofNat b.toNat) = b := by
  have codes : ∀ n < 0x80, (Char.ofNat n).toNat = n := by decide
  rw [Ascii.byte, codes b.toNat low, UInt8.ofNat_toNat]

theorem eq_of_append_singleton_eq {α : Type} {left front back : List α} {a d : α}
    (same : left ++ [d] = front ++ a :: back) (absent : a ∉ left) :
    front = left ∧ a = d ∧ back = [] := by
  rcases List.append_eq_append_iff.mp same with ⟨rest, rfl, split⟩ | ⟨rest, rfl, split⟩
  · cases rest with
    | nil =>
        obtain ⟨rfl, rfl⟩ := List.cons.inj split
        simp
    | cons e rest => simp at split
  · cases rest with
    | nil =>
        obtain ⟨rfl, rfl⟩ := List.cons.inj split
        simp
    | cons e rest =>
        obtain ⟨rfl, _⟩ := List.cons.inj split
        simp at absent

/-- An ASCII character of a decoded text is a byte, before and behind which the bytes stand for
what is before and behind the character. -/
theorem exists_of_decodeFrom_eq (reached : IsReached state) (mark : IsMark c)
    (decoded : decodeFrom state bytes = before ++ c :: after) :
    ∃ front back, bytes = front ++ Ascii.byte c :: back ∧ decodeFrom state front = before ∧
      decodeFrom none back = after := by
  induction bytes generalizing state before with
  | nil =>
      have member : c ∈ finish state := by
        rw [decodeFrom] at decoded
        rw [decoded]
        simp
      cases state with
      | none => cases member
      | some pending =>
          rw [finish, List.mem_singleton] at member
          exact absurd (member ▸ mark) not_isMark_replacement
  | cons b bytes induction =>
      rw [decodeFrom] at decoded
      have later : ∀ others : Text, before = (step state b).1 ++ others →
          decodeFrom (step state b).2 bytes = others ++ c :: after →
            ∃ front back, b :: bytes = front ++ Ascii.byte c :: back ∧
              decodeFrom state front = before ∧ decodeFrom none back = after := by
        rintro others rfl rest
        obtain ⟨front, back, rfl, first, second⟩ := induction (isReached_step reached b) rest
        exact ⟨b :: front, back, rfl, by rw [decodeFrom, first], second⟩
      rcases List.append_eq_append_iff.mp decoded with
        ⟨others, split, rest⟩ | ⟨others, split, rest⟩
      · exact later others split rest
      · cases others with
        | nil =>
            rw [List.append_nil] at split
            exact later [] (by rw [split, List.append_nil]) rest.symm
        | cons d others =>
            obtain ⟨rfl, tail⟩ := List.cons.inj rest
            have member : c ∈ (step state b).1 := by
              rw [split]
              simp
            by_cases low : b < 0x80
            · have absent : c ∉ finish state := by
                intro inside
                cases state with
                | none => cases inside
                | some pending =>
                    rw [finish, List.mem_singleton] at inside
                    exact not_isMark_replacement (inside ▸ mark)
              rw [step_of_lt reached low] at split tail
              obtain ⟨rfl, rfl, rfl⟩ := eq_of_append_singleton_eq split absent
              exact ⟨[], bytes, by rw [byte_ofNat low]; rfl, rfl, tail.symm⟩
            · exact absurd mark (not_isMark_of_step reached low member)

theorem byte_mem_of_mem_decode (mark : IsMark c) (member : c ∈ decode bytes) :
    Ascii.byte c ∈ bytes := by
  obtain ⟨before, after, split⟩ := List.append_of_mem member
  obtain ⟨front, back, rfl, _⟩ := exists_of_decodeFrom_eq isReached_none mark split
  simp

theorem decodeFrom_some_ne_nil (pending : Pending) (bytes : List UInt8) :
    decodeFrom (some pending) bytes ≠ [] := by
  induction bytes generalizing pending with
  | nil => simp [decodeFrom, finish]
  | cons b bytes induction =>
      rw [decodeFrom, step]
      split
      · dsimp only
        split
        · simp
        · exact induction _
      · simp

theorem decode_eq_nil_iff : decode bytes = [] ↔ bytes = [] := by
  constructor
  · intro empty
    cases bytes with
    | nil => rfl
    | cons b bytes =>
        rw [decode, decodeFrom, step] at empty
        rcases start_cases b with same | same | ⟨pending, same⟩
        · simp [same] at empty
        · simp [same] at empty
        · rw [same] at empty
          exact absurd empty (decodeFrom_some_ne_nil pending bytes)
  · rintro rfl
    rfl

/-- Bytes are decoded to text that begins with ASCII characters if they begin with their bytes. -/
theorem prefix_decode_iff (marks : ∀ c ∈ text, IsMark c) :
    text <+: decode bytes ↔ text.map Ascii.byte <+: bytes := by
  constructor
  · rintro ⟨rest, same⟩
    induction text generalizing bytes with
    | nil => exact List.nil_prefix
    | cons c text induction =>
        obtain ⟨mark, others⟩ := List.forall_mem_cons.mp marks
        have split : decodeFrom none bytes = [] ++ c :: (text ++ rest) := same.symm
        obtain ⟨front, back, rfl, first, second⟩ :=
          exists_of_decodeFrom_eq isReached_none mark split
        rw [decode_eq_nil_iff.mp first]
        exact List.cons_prefix_cons.mpr ⟨rfl, induction others second.symm⟩
  · rintro ⟨rest, rfl⟩
    rw [decode_append_of_isAscii fun c member => isAscii_of_isMark (marks c member)]
    exact List.prefix_append text _

end Utf8

end RelayDescriptor
