import Offload.Proofs.Interval.Grammar

namespace Offload

namespace Interval

/-- The text of an interval has room for one part, and for no sign. -/
def HasOnePart (i : Interval) : Prop :=
  0 ≤ i.millis.toInt ∧ (i.months = 0 ∨ i.millis = 0)

section Texts

variable {i : Interval}

theorem display_fixed (hmonths : i.months = 0) :
    i.display = signedDecimal i.millis.toInt ++ ['m', 's'] := by
  simp only [display, hmonths, ↓reduceIte]

theorem display_calendar (hmonths : i.months ≠ 0) (hmillis : i.millis = 0) :
    i.display = decimal i.months.toNat ++ ['M'] := by
  simp only [display, hmonths, hmillis, ↓reduceIte]

theorem display_both (hmonths : i.months ≠ 0) (hmillis : i.millis ≠ 0) :
    i.display =
      decimal i.months.toNat ++ ['M'] ++ '+' :: (signedDecimal i.millis.toInt ++ ['m', 's']) := by
  simp only [display, hmonths, hmillis, ↓reduceIte]

end Texts

section Reading

variable {i : Interval} {letters : List Char}

theorem shape_decimal (n : Nat) (hne : letters ≠ []) (hletters : ∀ c ∈ letters, c.isAlpha = true) :
    Shape (decimal n ++ letters) n letters := by
  have hdigits : ∀ c ∈ decimal n, c.isDigit = true := fun c hc => isDigit_of_mem_decimal hc
  have hshape := @Shape.counted [] (decimal n) [] letters [] (by simp) (decimal_ne_nil n) hdigits
    (by simp) hne hletters (by simp)
  rw [← digitsValue_eq, digitsValue_decimal] at hshape
  simpa using hshape

theorem parse_decimal {n : Nat} {measure : Measure} (hn : n ≤ 9223372036854775807)
    (hne : letters ≠ []) (hletters : letters.all Char.isAlpha = true)
    (hunit : measure.HasName (String.ofList letters)) (hmakes : measure.Makes n i) :
    parse (String.ofList (decimal n ++ letters)) = .ok i := by
  have hshape : Shape (String.ofList (decimal n ++ letters)).toList n letters := by
    rw [String.toList_ofList]
    exact shape_decimal n hne (List.all_eq_true.mp hletters)
  exact parse_eq_ok_iff.mpr ⟨n, letters, measure, ⟨hshape, hn⟩, hunit, hmakes⟩

theorem parse_display_fixed (hmonths : i.months = 0) (hmillis : 0 ≤ i.millis.toInt) :
    parse (String.ofList i.display) = .ok i := by
  have hlt := i.millis.toInt_lt
  obtain ⟨n, hn⟩ := Int.eq_ofNat_of_zero_le hmillis
  have hmakes : (Measure.millis 1).Makes n i := ⟨hmonths, by omega⟩
  rw [display_fixed hmonths, hn]
  exact parse_decimal (by omega) (by simp) rfl ⟨_, .head _, .head _⟩ hmakes

theorem parse_display_calendar (hmonths : i.months ≠ 0) (hmillis : i.millis = 0) :
    parse (String.ofList i.display) = .ok i := by
  have hlt := i.months.toNat_lt
  have hmakes : (Measure.months 1).Makes i.months.toNat i := ⟨by omega, hmillis⟩
  have hunit : (Measure.months 1).HasName "M" := by simp [Measure.HasName, Measure.units]
  rw [display_calendar hmonths hmillis]
  exact parse_decimal (by omega) (by simp) rfl hunit hmakes

theorem parse_display_of_onePart (h : i.HasOnePart) : parse (String.ofList i.display) = .ok i := by
  obtain ⟨hsign, hparts⟩ := h
  by_cases hmonths : i.months = 0
  · exact parse_display_fixed hmonths hsign
  · exact parse_display_calendar hmonths (hparts.resolve_left hmonths)

/-- Only white space, digits and letters make up a text that may denote an interval. -/
theorem Shape.mem {cs : List Char} {count : Nat} (h : Shape cs count letters) :
    ∀ c ∈ cs, isBlank c = true ∨ c.isDigit = true ∨ c.isAlpha = true := by
  cases h with
  | bare hbefore _ hletters hafter => grind
  | counted hbefore _ hdigits hbetween _ hletters hafter => grind

theorem parse_malformed_of_mem {text : String} {c : Char} (hc : c ∈ text.toList)
    (hblank : isBlank c = false) (hdigit : c.isDigit = false) (halpha : c.isAlpha = false) :
    parse text = .error (.malformed text) := by
  have hshape : ∀ count letters, ¬Reads text count letters := by
    intro count letters hreads
    have hmem := hreads.1.mem c hc
    simp [hblank, hdigit, halpha] at hmem
  refine parse_eq_malformed_iff.mpr ⟨rfl, ?_, ?_⟩
  · rintro ⟨count, letters, _, hreads, _⟩
    exact hshape count letters hreads
  · rintro unit ⟨count, letters, hreads, _⟩
    exact hshape count letters hreads

theorem mem_signedDecimal {n : Int} (hn : n < 0) : '-' ∈ signedDecimal n := by
  obtain ⟨k, rfl⟩ := Int.eq_negSucc_of_lt_zero hn
  exact List.mem_cons_self

/-- A minus sign or a plus sign stands in every text that has no room for its interval. -/
theorem parse_display_of_not_onePart (h : ¬i.HasOnePart) :
    parse (String.ofList i.display) = .error (.malformed (String.ofList i.display)) := by
  by_cases hmonths : i.months = 0
  · have hsign : i.millis.toInt < 0 := by
      by_contra hle
      exact h ⟨by omega, Or.inl hmonths⟩
    have hmem : '-' ∈ (String.ofList i.display).toList := by
      rw [String.toList_ofList, display_fixed hmonths]
      exact List.mem_append_left _ (mem_signedDecimal hsign)
    exact parse_malformed_of_mem hmem (by decide) (by decide) (by decide)
  · have hmillis : i.millis ≠ 0 := by
      intro hzero
      have hsign : i.millis.toInt = 0 := by rw [hzero]; rfl
      exact h ⟨by omega, Or.inr hzero⟩
    have hmem : '+' ∈ (String.ofList i.display).toList := by
      rw [String.toList_ofList, display_both hmonths hmillis]
      exact List.mem_append_right _ List.mem_cons_self
    exact parse_malformed_of_mem hmem (by decide) (by decide) (by decide)

theorem onePart_of_parse {text : String} (h : parse text = .ok i) : i.HasOnePart := by
  obtain ⟨count, _, measure, _, _, hmakes⟩ := parse_eq_ok_iff.mp h
  cases measure with
  | millis size =>
    obtain ⟨hmonths, hmillis⟩ := hmakes
    have hproduct := Int.natCast_mul count size
    exact ⟨by omega, Or.inl hmonths⟩
  | months size =>
    have hsign : i.millis.toInt = 0 := by rw [hmakes.2]; rfl
    exact ⟨by omega, Or.inr hmakes.2⟩

end Reading

/-- The text that shows an interval denotes it if and only if the interval is not negative and one of its
parts is zero, and is malformed otherwise. Every interval that some text denotes is denoted by its own. -/
theorem parse_display (i : Interval) :
    (0 ≤ i.millis.toInt ∧ (i.months = 0 ∨ i.millis = 0) →
      parse (String.ofList i.display) = .ok i) ∧
    (¬(0 ≤ i.millis.toInt ∧ (i.months = 0 ∨ i.millis = 0)) →
      parse (String.ofList i.display) = .error (.malformed (String.ofList i.display))) ∧
    ∀ text, parse text = .ok i → parse (String.ofList i.display) = .ok i :=
  ⟨parse_display_of_onePart, parse_display_of_not_onePart,
    fun _ h => parse_display_of_onePart (onePart_of_parse h)⟩

/-- The longest intervals of each kind, the shortest one, an interval with two parts, and a year. -/
theorem parse_display_extremes :
    parse "9223372036854775807ms" = .ok ⟨0, 9223372036854775807⟩ ∧
      parse "4294967295M" = .ok ⟨4294967295, 0⟩ ∧
      parse "-9223372036854775808ms" = .error (.malformed "-9223372036854775808ms") ∧
      parse "1M+1ms" = .error (.malformed "1M+1ms") ∧
      parse "year" = .ok ⟨12, 0⟩ ∧ parse "12M" = .ok ⟨12, 0⟩ :=
  ⟨(parse_display ⟨0, 9223372036854775807⟩).1 (by decide),
    (parse_display ⟨4294967295, 0⟩).1 (by decide),
    (parse_display ⟨0, -9223372036854775808⟩).2.1 (by decide),
    (parse_display ⟨1, 1⟩).2.1 (by decide),
    by decide, (parse_display ⟨12, 0⟩).2.2 "year" (by decide)⟩

end Interval

end Offload
