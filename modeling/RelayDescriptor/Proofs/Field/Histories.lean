import RelayDescriptor.Field.History
import RelayDescriptor.Proofs.Field.Timestamps
import RelayDescriptor.Proofs.OrderedMap
import RelayDescriptor.Proofs.Reading.Overlong
import RelayDescriptor.Proofs.Text.Separated

/-!
# Bandwidth histories and their intervals

A history is read from an existing moment, a length in seconds and a list of numbers, the
last of which belongs to the interval that ends at the moment.  The ends of the intervals
are different if the intervals have a length; then every number is kept.  With a length of
zero all intervals end at one moment, and only the last number is kept.
-/

namespace RelayDescriptor

namespace Numeral

/-- A text is a numeral without a sign that is short enough to be read, and a number its value. -/
structure Writes (text : Text) (n : Int) : Prop where
  unsigned : isUnsigned text = true
  short : text.length ≤ digitLimit
  value : n = value text

theorem Writes.nonneg {text : Text} {n : Int} (writes : Writes text n) : 0 ≤ n := by
  rw [writes.value]
  exact Int.natCast_nonneg _

end Numeral

theorem readInteger_eq_ok_iff {text : Text} {n : Int} (unsigned : Numeral.isUnsigned text = true) :
    readInteger text = .ok n ↔ Numeral.Writes text n := by
  by_cases short : text.length ≤ Numeral.digitLimit
  · have read : readInteger text = .ok (Numeral.value text : Int) := by
      rw [readInteger, Numeral.readInt_of_isUnsigned unsigned, Numeral.readNat, if_pos short]
      rfl
    rw [read, Except.ok.injEq]
    exact ⟨fun same => ⟨unsigned, short, same.symm⟩, fun writes => writes.value.symm⟩
  · rw [readInteger_of_isUnsigned unsigned (Nat.lt_of_not_le short)]
    constructor
    · intro failed
      cases failed
    · exact fun writes => absurd writes.short short

theorem seconds_eq_ok_iff {line text : Text} {n : Int} :
    seconds line text = .ok n ↔ Numeral.Writes text n := by
  rw [seconds]
  split
  next unsigned => exact readInteger_eq_ok_iff unsigned
  next other =>
    constructor
    · intro failed
      cases failed
    · exact fun writes => absurd writes.unsigned other

theorem interval_eq_ok_iff {line : Text} {arguments : List Text} {index : Nat} {n : Int} :
    interval line arguments index = .ok n ↔
      ∃ digits, arguments[index]? = some ('(' :: digits) ∧
        arguments[index + 1]? = some "s)".toList ∧ Numeral.Writes digits n := by
  simp only [interval, bind_eq_ok_iff, argumentAt_eq_ok_iff]
  constructor
  · rintro ⟨opening, first, closing, second, read⟩
    split at read
    next d digits =>
      split at read
      next same =>
        exact ⟨d :: digits, first, second.trans (congrArg some same), seconds_eq_ok_iff.mp read⟩
      next => cases read
    next => cases read
  · rintro ⟨digits, first, second, writes⟩
    obtain ⟨d, digits, rfl⟩ : ∃ d rest, digits = d :: rest :=
      List.exists_cons_of_ne_nil fun none => by
        have unsigned := writes.unsigned
        rw [none] at unsigned
        cases unsigned
    exact ⟨_, first, _, second, (if_pos rfl).trans (seconds_eq_ok_iff.mpr writes)⟩

namespace History

variable {line element : Text} {arguments : List Text} {endMillis intervalSeconds : Int}
  {numbers : List Int}

theorem byteCount_eq_ok_iff {n : Int} :
    byteCount line element = .ok n ↔ Numeral.Writes element n := by
  rw [byteCount]
  split
  next unsigned => exact readInteger_eq_ok_iff unsigned
  next other =>
    constructor
    · intro failed
      cases failed
    · exact fun writes => absurd writes.unsigned other

/-- The arguments of a history: a date and a time of day, an interval, and perhaps a list of
numbers with commas between them, and any number of commas after them. -/
structure IsWritten (arguments : List Text) (endMillis intervalSeconds : Int)
    (numbers : List Int) : Prop where
  length : arguments.length = 4 ∨ arguments.length = 5
  moment : ∃ moment : Calendar.Moment, moment.Exists ∧ arguments[0]? = some moment.dateText ∧
    arguments[1]? = some moment.timeText ∧ endMillis = moment.epochMillis
  interval : ∃ digits, arguments[2]? = some ('(' :: digits) ∧
    arguments[3]? = some "s)".toList ∧ Numeral.Writes digits intervalSeconds
  list : ∃ elements count, List.Forall₂ Numeral.Writes elements numbers ∧
    arguments[4]?.getD [] = Text.joinWith [','] elements ++ List.replicate count ','

/-- The first of the intervals ends before the epoch. -/
def EndsEarly (endMillis intervalSeconds : Int) (numbers : List Int) : Prop :=
  numbers ≠ [] ∧ endMillis - ((numbers.length : Int) - 1) * intervalSeconds * 1000 < 0

instance (endMillis intervalSeconds : Int) (numbers : List Int) :
    Decidable (EndsEarly endMillis intervalSeconds numbers) :=
  inferInstanceAs (Decidable (_ ∧ _))

theorem mapM_byteCount_eq_ok_iff {list : Text} :
    (commaFields list).mapM (byteCount line) = .ok numbers ↔
      ∃ elements count, List.Forall₂ Numeral.Writes elements numbers ∧
        list = Text.joinWith [','] elements ++ List.replicate count ',' := by
  rw [mapM_eq_ok_iff]
  simp only [byteCount_eq_ok_iff]
  constructor
  · intro each
    obtain ⟨_, _, count, joined⟩ :=
      Text.dropEmptyEnd_pieces_eq_iff.mp (rfl : commaFields list = commaFields list)
    exact ⟨_, count, each, joined⟩
  · rintro ⟨elements, count, each, joined⟩
    have unsigned : ∀ element ∈ elements, Numeral.isUnsigned element = true :=
      ((List.forall₂_and_left _ _).mp (each.imp fun _ _ writes => ⟨writes.unsigned, writes⟩)).1
    have same : commaFields list = elements := by
      refine Text.dropEmptyEnd_pieces_eq_iff.mpr ⟨?_, ?_, count, joined⟩
      · exact fun element member => Numeral.not_mem_of_isUnsigned (unsigned element member) rfl
      · intro last
        exact absurd (unsigned [] (List.mem_of_getLast? last)) (by decide)
    rw [same]
    exact each

/-! ## The ends of the intervals -/

theorem getElem?_withEnds (index : Nat) :
    (withEnds endMillis intervalSeconds numbers)[index]? = numbers[index]?.map fun number =>
      (endMillis - ((numbers.length : Int) - 1 - index) * intervalSeconds * 1000, number) := by
  simp [withEnds, List.getElem?_zipIdx, Function.comp_def]

theorem length_withEnds : (withEnds endMillis intervalSeconds numbers).length = numbers.length := by
  simp [withEnds]

theorem keys_withEnds :
    OrderedMap.keys (withEnds endMillis intervalSeconds numbers) =
      (List.range numbers.length).map fun index : Nat =>
        endMillis - ((numbers.length : Int) - 1 - index) * intervalSeconds * 1000 := by
  rw [List.range_eq_range', ← List.zipIdx_map_snd, List.map_map, OrderedMap.keys, withEnds,
    List.map_map]
  rfl

/-- The ends of the intervals ascend if the intervals have a length, or if there is only one. -/
theorem keys_withEnds_ascending (apart : 0 < intervalSeconds ∨ numbers.length ≤ 1) :
    (OrderedMap.keys (withEnds endMillis intervalSeconds numbers)).Pairwise (· < ·) := by
  rw [keys_withEnds, List.pairwise_map]
  refine List.pairwise_lt_range.imp_of_mem fun {index later} _ inside below => ?_
  have bound : later < numbers.length := List.mem_range.mp inside
  rcases apart with positive | short
  · have less : ((numbers.length : Int) - 1 - later) * intervalSeconds <
        ((numbers.length : Int) - 1 - index) * intervalSeconds :=
      Int.mul_lt_mul_of_pos_right (by omega) positive
    omega
  · omega

theorem getLast?_keys_withEnds (nonempty : numbers ≠ []) :
    (OrderedMap.keys (withEnds endMillis intervalSeconds numbers)).getLast? = some endMillis := by
  have positive : 0 < numbers.length := List.length_pos_iff.mpr nonempty
  obtain ⟨before, size⟩ := Nat.exists_eq_succ_of_ne_zero (Nat.ne_of_gt positive)
  rw [keys_withEnds, size, List.range_succ, List.map_append, List.map_singleton,
    List.getLast?_concat]
  simp

/-- Without a length all intervals end at one moment. -/
theorem withEnds_zero :
    withEnds endMillis 0 numbers = numbers.map fun number => (endMillis, number) := by
  apply List.ext_getElem?
  intro index
  rw [getElem?_withEnds, List.getElem?_map, Int.mul_zero, Int.zero_mul, Int.sub_zero]

/-- No interval ends before the first one. -/
theorem exists_early_iff (nonneg : 0 ≤ intervalSeconds) :
    (∃ stop ∈ OrderedMap.keys (withEnds endMillis intervalSeconds numbers), stop < 0) ↔
      EndsEarly endMillis intervalSeconds numbers := by
  simp only [keys_withEnds, List.mem_map, List.mem_range]
  constructor
  · rintro ⟨_, ⟨index, inside, rfl⟩, early⟩
    have least : ((numbers.length : Int) - 1 - index) * intervalSeconds ≤
        ((numbers.length : Int) - 1) * intervalSeconds :=
      Int.mul_le_mul_of_nonneg_right (by omega) nonneg
    exact ⟨List.ne_nil_of_length_pos (by omega), by omega⟩
  · rintro ⟨nonempty, early⟩
    exact ⟨_, ⟨0, List.length_pos_iff.mpr nonempty, rfl⟩, by simpa using early⟩

theorem any_withEnds_iff (nonneg : 0 ≤ intervalSeconds) :
    ((withEnds endMillis intervalSeconds numbers).any fun (stop, _) => decide (stop < 0)) = true ↔
      EndsEarly endMillis intervalSeconds numbers := by
  rw [← exists_early_iff nonneg, List.any_eq_true, OrderedMap.keys]
  simp

end History

open History

variable {line : Text} {arguments : List Text} {endMillis intervalSeconds : Int}
  {numbers : List Int}

theorem History.IsWritten.nonneg
    (written : IsWritten arguments endMillis intervalSeconds numbers) : 0 ≤ intervalSeconds := by
  obtain ⟨_, _, _, writes⟩ := written.interval
  exact writes.nonneg

/-- What is read of the arguments of a history. -/
theorem bandwidthHistory_of_isWritten
    (written : IsWritten arguments endMillis intervalSeconds numbers) :
    bandwidthHistory line arguments =
      if (withEnds endMillis intervalSeconds numbers).any fun (stop, _) => stop < 0 then
        .error (.line line "history intervals that end after the epoch")
      else .ok ⟨line, endMillis, intervalSeconds,
        OrderedMap.ofList (withEnds endMillis intervalSeconds numbers)⟩ := by
  obtain ⟨moment, found, date, time, same⟩ := written.moment
  have ends : timestamp line arguments 0 1 = .ok endMillis :=
    timestamp_eq_ok_iff.mpr
      ⟨_, _, date, time, Timestamp.read_eq_ok_iff.mpr ⟨moment, found, rfl, rfl, same⟩⟩
  have length : interval line arguments 2 = .ok intervalSeconds :=
    interval_eq_ok_iff.mpr written.interval
  have list : (commaFields (arguments[4]?.getD [])).mapM (byteCount line) = .ok numbers :=
    mapM_byteCount_eq_ok_iff.mpr written.list
  have count : ¬(arguments.length ≠ 4 ∧ arguments.length ≠ 5) := by
    have either := written.length
    omega
  rw [bandwidthHistory, if_neg count, ends, length]
  dsimp only [bind, Except.bind]
  rw [list]
  rfl

theorem exists_isWritten_of_bandwidthHistory {history : BandwidthHistory}
    (read : bandwidthHistory line arguments = .ok history) :
    ∃ endMillis intervalSeconds numbers,
      IsWritten arguments endMillis intervalSeconds numbers := by
  rw [bandwidthHistory] at read
  split at read
  next => cases read
  next count =>
    obtain ⟨endMillis, ends, read⟩ := bind_eq_ok_iff.mp read
    obtain ⟨intervalSeconds, length, read⟩ := bind_eq_ok_iff.mp read
    obtain ⟨numbers, list, read⟩ := bind_eq_ok_iff.mp read
    obtain ⟨_, _, date, time, parts⟩ := timestamp_eq_ok_iff.mp ends
    obtain ⟨moment, found, rfl, rfl, same⟩ := Timestamp.read_eq_ok_iff.mp parts
    refine ⟨endMillis, intervalSeconds, numbers, ?_⟩
    constructor
    · omega
    · exact ⟨moment, found, date, time, same⟩
    · exact interval_eq_ok_iff.mp length
    · exact mapM_byteCount_eq_ok_iff.mp list

/-- A history keeps each of some numbers with the end of its interval. -/
structure BandwidthHistory.KeepsAll (history : BandwidthHistory) (numbers : List Int) : Prop where
  count : history.values.length = numbers.length
  entries : ∀ index : Nat, history.values[index]? = numbers[index]?.map fun number =>
    (history.endMillis - ((numbers.length : Int) - 1 - index) * history.intervalSeconds * 1000,
      number)
  ascending : (OrderedMap.keys history.values).Pairwise (· < ·)
  nonneg : ∀ stop ∈ OrderedMap.keys history.values, 0 ≤ stop
  last : numbers ≠ [] → (OrderedMap.keys history.values).getLast? = some history.endMillis

/-- A history that holds the numbers with the ends of their intervals keeps them all if these ends
are different. -/
theorem keepsAll_of_apart (nonneg : 0 ≤ intervalSeconds)
    (apart : 0 < intervalSeconds ∨ numbers.length ≤ 1)
    (late : ¬EndsEarly endMillis intervalSeconds numbers) :
    BandwidthHistory.KeepsAll ⟨line, endMillis, intervalSeconds,
      OrderedMap.ofList (withEnds endMillis intervalSeconds numbers)⟩ numbers := by
  have ascending :
      (OrderedMap.keys (withEnds endMillis intervalSeconds numbers)).Pairwise (· < ·) :=
    keys_withEnds_ascending apart
  have same : OrderedMap.ofList (withEnds endMillis intervalSeconds numbers) =
      withEnds endMillis intervalSeconds numbers :=
    OrderedMap.ofList_of_nodup (ascending.imp Int.ne_of_lt)
  rw [same]
  constructor
  · exact length_withEnds
  · exact getElem?_withEnds
  · exact ascending
  · intro stop member
    by_contra early
    exact late ((exists_early_iff nonneg).mp ⟨stop, member, Int.not_le.mp early⟩)
  · exact getLast?_keys_withEnds

theorem ofList_withEnds_zero :
    OrderedMap.ofList (withEnds endMillis 0 numbers) =
      (numbers.getLast?.map fun number => (endMillis, number)).toList := by
  have same : ∀ entry ∈ numbers.map fun number => (endMillis, number), entry.1 = endMillis := by
    simp
  rw [withEnds_zero, OrderedMap.ofList_of_forall_eq same, List.getLast?_map]

/-- A history is accepted if it is written well and no interval ends before the epoch.  It keeps
each number with the end of its interval if the intervals have a length, or if there is at most one
number; if they have no length, it keeps the last number only. -/
theorem bandwidthHistory_keepsAll_iff (line : Text) (arguments : List Text) :
    ((∃ history, bandwidthHistory line arguments = .ok history) ↔
      ∃ endMillis intervalSeconds numbers,
        IsWritten arguments endMillis intervalSeconds numbers ∧
          ¬EndsEarly endMillis intervalSeconds numbers) ∧
    ∀ endMillis intervalSeconds numbers,
      IsWritten arguments endMillis intervalSeconds numbers →
        (bandwidthHistory line arguments =
            .error (.line line "history intervals that end after the epoch") ↔
          EndsEarly endMillis intervalSeconds numbers) ∧
        ∀ history, bandwidthHistory line arguments = .ok history →
          history.line = line ∧ history.endMillis = endMillis ∧
            history.intervalSeconds = intervalSeconds ∧
            (history.KeepsAll numbers ↔ 0 < intervalSeconds ∨ numbers.length ≤ 1) ∧
            (intervalSeconds = 0 →
              history.values =
                (numbers.getLast?.map fun number => (endMillis, number)).toList) := by
  have early : ∀ {endMillis intervalSeconds : Int} {numbers : List Int},
      IsWritten arguments endMillis intervalSeconds numbers →
        EndsEarly endMillis intervalSeconds numbers →
          bandwidthHistory line arguments =
            .error (.line line "history intervals that end after the epoch") := by
    intro endMillis intervalSeconds numbers written early
    rw [bandwidthHistory_of_isWritten written, if_pos ((any_withEnds_iff written.nonneg).mpr early)]
  have kept : ∀ {endMillis intervalSeconds : Int} {numbers : List Int},
      IsWritten arguments endMillis intervalSeconds numbers →
        ¬EndsEarly endMillis intervalSeconds numbers →
          bandwidthHistory line arguments = .ok ⟨line, endMillis, intervalSeconds,
            OrderedMap.ofList (withEnds endMillis intervalSeconds numbers)⟩ := by
    intro endMillis intervalSeconds numbers written late
    rw [bandwidthHistory_of_isWritten written,
      if_neg ((any_withEnds_iff written.nonneg).not.mpr late)]
  refine ⟨⟨?_, ?_⟩, ?_⟩
  · rintro ⟨history, read⟩
    obtain ⟨endMillis, intervalSeconds, numbers, written⟩ :=
      exists_isWritten_of_bandwidthHistory read
    refine ⟨endMillis, intervalSeconds, numbers, written, fun endsEarly => ?_⟩
    rw [early written endsEarly] at read
    cases read
  · rintro ⟨endMillis, intervalSeconds, numbers, written, late⟩
    exact ⟨_, kept written late⟩
  · intro endMillis intervalSeconds numbers written
    by_cases endsEarly : EndsEarly endMillis intervalSeconds numbers
    · rw [early written endsEarly]
      refine ⟨iff_of_true rfl endsEarly, ?_⟩
      intro history read
      cases read
    · rw [kept written endsEarly]
      refine ⟨iff_of_false (by simp) endsEarly, ?_⟩
      rintro history ⟨⟩
      refine ⟨rfl, rfl, rfl, ⟨?_, ?_⟩, ?_⟩
      · intro keeps
        by_contra neither
        obtain ⟨notPositive, long⟩ := not_or.mp neither
        have zero : intervalSeconds = 0 :=
          Int.le_antisymm (Int.not_lt.mp notPositive) written.nonneg
        subst zero
        have count : (OrderedMap.ofList (withEnds endMillis 0 numbers)).length = numbers.length :=
          keeps.count
        rw [ofList_withEnds_zero] at count
        have few : (numbers.getLast?.map fun number => (endMillis, number)).toList.length ≤ 1 := by
          cases numbers.getLast? <;> simp
        omega
      · exact fun apart => keepsAll_of_apart written.nonneg apart endsEarly
      · rintro rfl
        exact ofList_withEnds_zero

theorem bandwidthHistory_keepsAll_two :
    let line := "write-history 2012-02-11 09:03:39 (900 s) 7,8,".toList
    let arguments := ["2012-02-11", "09:03:39", "(900", "s)", "7,8,"].map String.toList
    IsWritten arguments 1328951019000 900 [7, 8] ∧
      ∃ history, bandwidthHistory line arguments = .ok history ∧ history.KeepsAll [7, 8] := by
  intro line arguments
  have written : IsWritten arguments 1328951019000 900 [7, 8] := by
    constructor
    · decide
    · exact ⟨⟨2012, 2, 11, 9, 3, 39⟩, by decide, by decide, by decide, by decide⟩
    · exact ⟨"900".toList, by decide, by decide, by decide, by decide, by decide⟩
    · refine ⟨[['7'], ['8']], 1, ?_, by decide⟩
      exact .cons ⟨by decide, by decide, by decide⟩ (.cons ⟨by decide, by decide, by decide⟩ .nil)
  obtain ⟨accepted, each⟩ := bandwidthHistory_keepsAll_iff line arguments
  obtain ⟨history, read⟩ := accepted.mpr ⟨_, _, _, written, by decide⟩
  obtain ⟨_, _, _, keeps, _⟩ := (each _ _ _ written).2 history read
  exact ⟨written, history, read, keeps.mpr (by decide)⟩

/-- Without a length, two intervals become one. -/
theorem not_keepsAll_zero :
    let line := "write-history 2012-02-11 09:03:39 (0 s) 1,2".toList
    let arguments := ["2012-02-11", "09:03:39", "(0", "s)", "1,2"].map String.toList
    IsWritten arguments 1328951019000 0 [1, 2] ∧
      ∃ history, bandwidthHistory line arguments = .ok history ∧
        history.values = [(1328951019000, 2)] ∧ ¬history.KeepsAll [1, 2] := by
  intro line arguments
  have written : IsWritten arguments 1328951019000 0 [1, 2] := by
    constructor
    · decide
    · exact ⟨⟨2012, 2, 11, 9, 3, 39⟩, by decide, by decide, by decide, by decide⟩
    · exact ⟨['0'], by decide, by decide, by decide, by decide, by decide⟩
    · refine ⟨[['1'], ['2']], 0, ?_, by decide⟩
      exact .cons ⟨by decide, by decide, by decide⟩ (.cons ⟨by decide, by decide, by decide⟩ .nil)
  refine ⟨written, ⟨line, 1328951019000, 0, [(1328951019000, 2)]⟩, by decide, rfl, ?_⟩
  intro keeps
  exact absurd keeps.count (by decide)

end RelayDescriptor
