import Offload.Interval.Reader
import Offload.Proofs.Text

namespace Offload

namespace Measure

/-- The names of the units, with what one unit measures. -/
def units : List (Measure × List String) :=
  [(.millis 1, ["ms", "millisecond", "milliseconds"]),
    (.millis 1000, ["s", "sec", "second", "seconds"]),
    (.millis (60 * 1000), ["m", "min", "minute", "minutes"]),
    (.millis (60 * 60 * 1000), ["h", "hour", "hours"]),
    (.millis (24 * 60 * 60 * 1000), ["d", "day", "days"]),
    (.millis (7 * 24 * 60 * 60 * 1000), ["w", "week", "weeks"]),
    (.months 1, ["M", "month", "months"]),
    (.months 12, ["y", "year", "years"])]

def HasName (measure : Measure) (unit : String) : Prop :=
  ∃ names, (measure, names) ∈ units ∧ unit ∈ names

/-- Does the product fit the part of an interval that the measure counts? -/
def InRange : Measure → Nat → Prop
  | .millis size, count => count * size ≤ 9223372036854775807
  | .months size, count => count * size ≤ 4294967295

/-- The interval that is the exact product, with nothing in its other part. -/
def Makes : Measure → Nat → Interval → Prop
  | .millis size, count, i => i.months = 0 ∧ i.millis.toInt = count * size
  | .months size, count, i => i.months.toNat = count * size ∧ i.millis = 0

theorem ofUnit?_eq_some_iff {unit : String} {measure : Measure} :
    ofUnit? unit = some measure ↔ measure.HasName unit := by
  constructor
  · intro h
    unfold ofUnit? at h
    split at h <;> cases h <;> simp [HasName, units]
  · rintro ⟨names, hm, hu⟩
    simp only [units, List.mem_cons, List.not_mem_nil, or_false, Prod.mk.injEq] at hm
    rcases hm with ⟨rfl, rfl⟩ | ⟨rfl, rfl⟩ | ⟨rfl, rfl⟩ | ⟨rfl, rfl⟩ | ⟨rfl, rfl⟩ | ⟨rfl, rfl⟩ |
      ⟨rfl, rfl⟩ | ⟨rfl, rfl⟩
    all_goals
      simp only [List.mem_cons, List.not_mem_nil, or_false] at hu
      rcases hu with rfl | rfl | rfl | rfl <;> rfl

theorem ofUnit?_eq_none_iff {unit : String} :
    ofUnit? unit = none ↔ ∀ measure : Measure, ¬measure.HasName unit := by
  rw [Option.eq_none_iff_forall_ne_some]
  simp only [ne_eq, ofUnit?_eq_some_iff]

theorem times?_eq_some_iff {measure : Measure} {count : Nat} {i : Interval} :
    measure.times? count = some i ↔ measure.Makes count i := by
  cases measure with
  | millis size =>
    simp only [times?, Makes, Option.map_eq_some_iff, int64?_eq_some_iff]
    constructor
    · rintro ⟨millis, hm, rfl⟩
      exact ⟨rfl, hm⟩
    · rintro ⟨hmonths, hm⟩
      exact ⟨i.millis, hm, by rw [← hmonths]⟩
  | months size =>
    simp only [times?, Makes, Option.map_eq_some_iff, ← Int.natCast_mul, uint32?_eq_some_iff]
    constructor
    · rintro ⟨months, hm, rfl⟩
      exact ⟨hm, rfl⟩
    · rintro ⟨hm, hmillis⟩
      exact ⟨i.months, hm, by rw [← hmillis]⟩

/-- A product in range is held by a word, and the value of a word is in range. -/
theorem exists_makes_iff {measure : Measure} {count : Nat} :
    (∃ i, measure.Makes count i) ↔ measure.InRange count := by
  cases measure with
  | millis size =>
    constructor
    · rintro ⟨i, _, hm⟩
      have hlt := i.millis.toInt_lt
      rw [hm, ← Int.natCast_mul] at hlt
      unfold InRange
      omega
    · intro h
      unfold InRange at h
      have hproduct := Int.natCast_mul count size
      exact ⟨⟨0, Int64.ofInt (count * size)⟩, rfl,
        Int64.toInt_ofInt_of_le (by omega) (by omega)⟩
  | months size =>
    constructor
    · rintro ⟨i, hm, _⟩
      have hlt := i.months.toNat_lt
      unfold InRange
      omega
    · intro h
      unfold InRange at h
      exact ⟨⟨UInt32.ofNat (count * size), 0⟩, UInt32.toNat_ofNat_of_lt' (Nat.lt_succ_of_le h), rfl⟩

end Measure

namespace Interval

/-- The shape of a text that may denote an interval: white space, digits and more white space unless the
count is one, letters, and white space. -/
inductive Shape : List Char → Nat → List Char → Prop
  | bare {before letters after : List Char} :
    (∀ c ∈ before, isBlank c = true) →
    letters ≠ [] → (∀ c ∈ letters, c.isAlpha = true) →
    (∀ c ∈ after, isBlank c = true) →
    Shape (before ++ (letters ++ after)) 1 letters
  | counted {before digits between letters after : List Char} :
    (∀ c ∈ before, isBlank c = true) →
    digits ≠ [] → (∀ c ∈ digits, c.isDigit = true) →
    (∀ c ∈ between, isBlank c = true) →
    letters ≠ [] → (∀ c ∈ letters, c.isAlpha = true) →
    (∀ c ∈ after, isBlank c = true) →
    Shape (before ++ (digits ++ (between ++ (letters ++ after))))
      (Nat.ofDigits 10 (digits.reverse.map fun c => c.toNat - '0'.toNat)) letters

/-- A text of that shape with a count that a signed word of 64 bits can hold. -/
def Reads (text : String) (count : Nat) (letters : List Char) : Prop :=
  Shape text.toList count letters ∧ count ≤ 9223372036854775807

/-- A text with a unit of the table, whose product is in range. -/
def Accepted (text : String) : Prop :=
  ∃ count letters measure, Reads text count letters ∧
    Measure.HasName measure (String.ofList letters) ∧ measure.InRange count

/-- A text whose letters are not a unit of the table. -/
def Unknown (text unit : String) : Prop :=
  ∃ count letters, Reads text count letters ∧
    (∀ measure : Measure, ¬measure.HasName (String.ofList letters)) ∧ unit = String.ofList letters

/-- The count that digits denote. -/
def countOf (digits : List Char) : Nat :=
  if digits.isEmpty then 1 else digitsValue digits

theorem countOf_digits {digits : List Char} (h : digits ≠ []) :
    countOf digits = Nat.ofDigits 10 (digits.reverse.map fun c => c.toNat - '0'.toNat) := by
  rw [countOf, if_neg (by simpa using h), digitsValue_eq]

/-- A text cut into runs: white space, digits, white space and letters, each of them as long as it can be,
and the rest. -/
structure Cut (before digits between letters after : List Char) : Prop where
  before : ∀ c ∈ before, isBlank c = true
  beforeEnds : Stops isBlank (digits ++ (between ++ (letters ++ after)))
  digits : ∀ c ∈ digits, c.isDigit = true
  digitsEnd : Stops Char.isDigit (between ++ (letters ++ after))
  between : ∀ c ∈ between, isBlank c = true
  betweenEnds : Stops isBlank (letters ++ after)
  letters : ∀ c ∈ letters, c.isAlpha = true
  lettersEnd : Stops Char.isAlpha after

section Cuts

variable {before digits between letters after : List Char}

theorem exists_cut (cs : List Char) :
    ∃ before digits between letters after,
      cs = before ++ (digits ++ (between ++ (letters ++ after))) ∧
        Cut before digits between letters after := by
  obtain ⟨before, rest, rfl, hbefore, hb⟩ := exists_run isBlank cs
  obtain ⟨digits, rest, rfl, hdigits, hd⟩ := exists_run Char.isDigit rest
  obtain ⟨between, rest, rfl, hbetween, hb'⟩ := exists_run isBlank rest
  obtain ⟨letters, after, rfl, hletters, hl⟩ := exists_run Char.isAlpha rest
  exact ⟨before, digits, between, letters, after, rfl, hbefore, hb, hdigits, hd, hbetween, hb',
    hletters, hl⟩

/-- The characters of one run cannot continue the run before it. Only a run of digits keeps the white space
on its two sides apart. -/
theorem cut_of_runs (hbefore : ∀ c ∈ before, isBlank c = true)
    (hdigits : ∀ c ∈ digits, c.isDigit = true) (hbetween : ∀ c ∈ between, isBlank c = true)
    (hne : letters ≠ []) (hletters : ∀ c ∈ letters, c.isAlpha = true)
    (hafter : ∀ c ∈ after, isBlank c = true) (hgap : digits = [] → between = []) :
    Cut before digits between letters after := by
  have hb : Stops isBlank (letters ++ after) :=
    stops_append hne (fun c hc => isBlank_of_isAlpha (hletters c hc)) after
  have hd : Stops Char.isDigit (letters ++ after) :=
    stops_append hne (fun c hc => isDigit_of_isAlpha (hletters c hc)) after
  refine ⟨hbefore, ?_, hdigits, ?_, hbetween, hb, hletters, ?_⟩
  · by_cases hempty : digits = []
    · simpa [hempty, hgap hempty] using hb
    · exact stops_append hempty (fun c hc => isBlank_of_isDigit (hdigits c hc)) _
  · exact hd.append fun c hc => isDigit_of_isBlank (hbetween c hc)
  · exact stops_of_forall fun c hc => isAlpha_of_isBlank (hafter c hc)

theorem Cut.shape?_eq_some_iff {ds ls : List Char} (h : Cut before digits between letters after) :
    shape? (before ++ (digits ++ (between ++ (letters ++ after)))) = some (ds, ls) ↔
      letters ≠ [] ∧ (∀ c ∈ after, isBlank c = true) ∧ digits = ds ∧ letters = ls := by
  simp only [shape?, spanDigits, skipBlank, dropWhile_run h.before h.beforeEnds,
    takeWhile_run h.digits h.digitsEnd, dropWhile_run h.digits h.digitsEnd,
    dropWhile_run h.between h.betweenEnds, takeWhile_run h.letters h.lettersEnd,
    dropWhile_run h.letters h.lettersEnd]
  by_cases hne : letters = []
  · simp [hne]
  · by_cases hafter : ∀ c ∈ after, isBlank c = true
    · have hend := List.dropWhile_eq_nil_iff.mpr hafter
      rw [iff_true_intro hafter]
      simp [hne, hend]
    · have hend : after.dropWhile isBlank ≠ [] := fun hend =>
        hafter (List.dropWhile_eq_nil_iff.mp hend)
      simp [hend, hafter]

end Cuts

theorem Shape.shape? {cs letters : List Char} {count : Nat} (h : Shape cs count letters) :
    ∃ digits, shape? cs = some (digits, letters) ∧ countOf digits = count := by
  cases h with
  | @bare before _ after hbefore hne hletters hafter =>
    have hcut : Cut before [] [] letters after :=
      cut_of_runs hbefore (by simp) (by simp) hne hletters hafter fun _ => rfl
    exact ⟨[], hcut.shape?_eq_some_iff.mpr ⟨hne, hafter, rfl, rfl⟩, rfl⟩
  | @counted before digits between _ after hbefore hdne hdigits hbetween hne hletters hafter =>
    have hcut : Cut before digits between letters after :=
      cut_of_runs hbefore hdigits hbetween hne hletters hafter fun h => (hdne h).elim
    exact ⟨digits, hcut.shape?_eq_some_iff.mpr ⟨hne, hafter, rfl, rfl⟩, countOf_digits hdne⟩

theorem shape_of_shape? {cs digits letters : List Char} (h : shape? cs = some (digits, letters)) :
    Shape cs (countOf digits) letters := by
  obtain ⟨before, run, between, word, after, rfl, hcut⟩ := exists_cut cs
  obtain ⟨hne, hafter, rfl, rfl⟩ := hcut.shape?_eq_some_iff.mp h
  by_cases hempty : run = []
  · -- Without digits, the white space on both sides of them is one run.
    subst hempty
    have hblank : ∀ c ∈ before ++ between, isBlank c = true := fun c hc =>
      (List.mem_append.mp hc).elim (hcut.before c) (hcut.between c)
    have hshape := Shape.bare hblank hne hcut.letters hafter
    rwa [List.append_assoc] at hshape
  · rw [countOf_digits hempty]
    exact .counted hcut.before hempty hcut.digits hcut.between hne hcut.letters hafter

variable {text : String} {count : Nat} {letters : List Char} {i : Interval}

theorem parse_reads_unknown (h : Reads text count letters)
    (hu : Measure.ofUnit? (String.ofList letters) = none) :
    parse text = .error (.unknownUnit (String.ofList letters)) := by
  obtain ⟨hs, hcount⟩ := h
  obtain ⟨digits, hshape, rfl⟩ := hs.shape?
  have hlarge : ¬9223372036854775808 ≤ countOf digits := by omega
  unfold countOf at hlarge
  simp only [parse, hshape, hu, if_neg hlarge]

theorem parse_reads_ok {measure : Measure} (h : Reads text count letters)
    (hu : Measure.ofUnit? (String.ofList letters) = some measure)
    (ht : measure.times? count = some i) : parse text = .ok i := by
  obtain ⟨hs, hcount⟩ := h
  obtain ⟨digits, hshape, rfl⟩ := hs.shape?
  have hlarge : ¬9223372036854775808 ≤ countOf digits := by omega
  unfold countOf at hlarge ht
  simp only [parse, hshape, hu, if_neg hlarge, ht]

theorem parse_cases (text : String) :
    parse text = .error (.malformed text) ∨
      ∃ count letters, Reads text count letters ∧
        (Measure.ofUnit? (String.ofList letters) = none ∧
            parse text = .error (.unknownUnit (String.ofList letters)) ∨
          ∃ measure i, Measure.ofUnit? (String.ofList letters) = some measure ∧
            measure.times? count = some i ∧ parse text = .ok i) := by
  cases hs : shape? text.toList with
  | none => exact Or.inl (by simp only [parse, hs])
  | some found =>
    obtain ⟨digits, letters⟩ := found
    by_cases hlarge : 9223372036854775808 ≤ countOf digits
    · left
      unfold countOf at hlarge
      simp only [parse, hs, if_pos hlarge]
    · have hreads : Reads text (countOf digits) letters := ⟨shape_of_shape? hs, by omega⟩
      cases hu : Measure.ofUnit? (String.ofList letters) with
      | none => exact Or.inr ⟨_, letters, hreads, Or.inl ⟨hu, parse_reads_unknown hreads hu⟩⟩
      | some measure =>
        cases ht : measure.times? (countOf digits) with
        | none =>
          left
          unfold countOf at hlarge ht
          simp only [parse, hs, if_neg hlarge, hu, ht]
        | some i =>
          exact Or.inr ⟨_, letters, hreads, Or.inr ⟨measure, i, hu, ht, parse_reads_ok hreads hu ht⟩⟩

theorem parse_eq_ok_iff :
    parse text = .ok i ↔ ∃ count letters measure, Reads text count letters ∧
      Measure.HasName measure (String.ofList letters) ∧ measure.Makes count i := by
  constructor
  · intro h
    rcases parse_cases text with hm | ⟨count, letters, hr, ⟨_, hu⟩ | ⟨measure, found, hu, ht, hok⟩⟩
    · cases h.symm.trans hm
    · cases h.symm.trans hu
    · cases h.symm.trans hok
      exact ⟨count, letters, measure, hr, Measure.ofUnit?_eq_some_iff.mp hu,
        Measure.times?_eq_some_iff.mp ht⟩
  · rintro ⟨count, letters, measure, hr, hn, hm⟩
    exact parse_reads_ok hr (Measure.ofUnit?_eq_some_iff.mpr hn) (Measure.times?_eq_some_iff.mpr hm)

theorem parse_eq_unknownUnit_iff {unit : String} :
    parse text = .error (.unknownUnit unit) ↔ Unknown text unit := by
  constructor
  · intro h
    rcases parse_cases text with hm | ⟨count, letters, hr, ⟨hn, hu⟩ | ⟨_, _, _, _, hok⟩⟩
    · cases h.symm.trans hm
    · cases h.symm.trans hu
      exact ⟨count, letters, hr, Measure.ofUnit?_eq_none_iff.mp hn, rfl⟩
    · cases h.symm.trans hok
  · rintro ⟨count, letters, hr, hn, rfl⟩
    exact parse_reads_unknown hr (Measure.ofUnit?_eq_none_iff.mpr hn)

theorem parse_exists_ok_iff : (∃ i, parse text = .ok i) ↔ Accepted text := by
  constructor
  · rintro ⟨i, h⟩
    obtain ⟨count, letters, measure, hr, hn, hm⟩ := parse_eq_ok_iff.mp h
    exact ⟨count, letters, measure, hr, hn, Measure.exists_makes_iff.mp ⟨i, hm⟩⟩
  · rintro ⟨count, letters, measure, hr, hn, hrange⟩
    obtain ⟨i, hm⟩ := Measure.exists_makes_iff.mpr hrange
    exact ⟨i, parse_eq_ok_iff.mpr ⟨count, letters, measure, hr, hn, hm⟩⟩

theorem parse_eq_malformed_iff {other : String} :
    parse text = .error (.malformed other) ↔
      other = text ∧ ¬Accepted text ∧ ∀ unit, ¬Unknown text unit := by
  rcases parse_cases text with hm | ⟨_, _, _, ⟨_, hunknown⟩ | ⟨_, i, _, _, hok⟩⟩
  · constructor
    · intro h
      cases h.symm.trans hm
      refine ⟨rfl, fun ha => ?_, fun unit hu => ?_⟩
      · obtain ⟨i, hok⟩ := parse_exists_ok_iff.mpr ha
        cases hm.symm.trans hok
      · cases hm.symm.trans (parse_eq_unknownUnit_iff.mpr hu)
    · rintro ⟨rfl, _⟩
      exact hm
  · refine iff_of_false (fun h => ?_) fun ⟨_, _, hu⟩ => ?_
    · cases h.symm.trans hunknown
    · exact hu _ (parse_eq_unknownUnit_iff.mp hunknown)
  · refine iff_of_false (fun h => ?_) fun ⟨_, ha, _⟩ => ?_
    · cases h.symm.trans hok
    · exact ha (parse_exists_ok_iff.mp ⟨i, hok⟩)

/-- A text denotes an interval if and only if it has the shape, its letters are a unit and the product is
in range; the interval is then the exact product. Letters that are no unit are reported if the count can be
read, and every other text is malformed. -/
theorem parse_grammar (text : String) :
    ((∃ i, parse text = .ok i) ↔ Accepted text) ∧
    (∀ i, parse text = .ok i ↔ ∃ count letters measure, Reads text count letters ∧
      Measure.HasName measure (String.ofList letters) ∧ measure.Makes count i) ∧
    (∀ unit, parse text = .error (.unknownUnit unit) ↔ Unknown text unit) ∧
    (∀ other, parse text = .error (.malformed other) ↔
      other = text ∧ ¬Accepted text ∧ ∀ unit, ¬Unknown text unit) :=
  ⟨parse_exists_ok_iff, fun _ => parse_eq_ok_iff, fun _ => parse_eq_unknownUnit_iff,
    fun _ => parse_eq_malformed_iff⟩

-- A no-break space before the count, an ideographic space after it and an em space at the end.
example : parse "\u00a05\u3000m\u2003" = .ok ⟨0, 300000⟩ ∧
    parse "5\u200bm" = .error (.malformed "5\u200bm") := by
  decide

end Interval

end Offload
