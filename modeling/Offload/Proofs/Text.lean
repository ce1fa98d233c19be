import Mathlib.Data.List.Induction
import Mathlib.Data.List.TakeWhile
import Mathlib.Data.Nat.Digits.Defs
import Offload.Text.Blank
import Offload.Text.Digits

namespace Offload

section Characters

variable {c : Char}

theorem isDigit_range (h : c.isDigit = true) : 48 ≤ c.toNat ∧ c.toNat ≤ 57 := by
  obtain ⟨hlow, hhigh⟩ := (Bool.and_eq_true _ _).mp h
  exact ⟨UInt32.le_iff_toNat_le.mp (of_decide_eq_true hlow),
    UInt32.le_iff_toNat_le.mp (of_decide_eq_true hhigh)⟩

theorem isAlpha_range (h : c.isAlpha = true) :
    65 ≤ c.toNat ∧ c.toNat ≤ 90 ∨ 97 ≤ c.toNat ∧ c.toNat ≤ 122 := by
  rcases (Bool.or_eq_true _ _).mp h with hupper | hlower
  · obtain ⟨hlow, hhigh⟩ := of_decide_eq_true hupper
    exact Or.inl ⟨UInt32.le_iff_toNat_le.mp hlow, UInt32.le_iff_toNat_le.mp hhigh⟩
  · obtain ⟨hlow, hhigh⟩ := (Bool.and_eq_true _ _).mp hlower
    exact Or.inr ⟨UInt32.le_iff_toNat_le.mp (of_decide_eq_true hlow),
      UInt32.le_iff_toNat_le.mp (of_decide_eq_true hhigh)⟩

theorem isBlank_range (h : isBlank c = true) : c.toNat ≤ 32 ∨ 133 ≤ c.toNat := by
  simp only [isBlank, blankRanges, List.any_cons, List.any_nil, Bool.or_false, Bool.or_eq_true,
    Bool.and_eq_true, decide_eq_true_eq] at h
  omega

theorem isBlank_of_isDigit (h : c.isDigit = true) : isBlank c = false := by
  refine Bool.eq_false_iff.mpr fun hb => ?_
  have hd := isDigit_range h
  have hr := isBlank_range hb
  omega

theorem isBlank_of_isAlpha (h : c.isAlpha = true) : isBlank c = false := by
  refine Bool.eq_false_iff.mpr fun hb => ?_
  have ha := isAlpha_range h
  have hr := isBlank_range hb
  omega

theorem isDigit_of_isAlpha (h : c.isAlpha = true) : c.isDigit = false := by
  refine Bool.eq_false_iff.mpr fun hd => ?_
  have ha := isAlpha_range h
  have hr := isDigit_range hd
  omega

theorem isDigit_of_isBlank (h : isBlank c = true) : c.isDigit = false :=
  Bool.eq_false_iff.mpr fun hd => Bool.eq_false_iff.mp (isBlank_of_isDigit hd) h

theorem isAlpha_of_isBlank (h : isBlank c = true) : c.isAlpha = false :=
  Bool.eq_false_iff.mpr fun ha => Bool.eq_false_iff.mp (isBlank_of_isAlpha ha) h

end Characters

section Runs

variable {p : Char → Bool} {xs ys : List Char}

/-- A text that does not continue a run of such characters before it. -/
def Stops (p : Char → Bool) (cs : List Char) : Prop :=
  ∀ c ∈ cs.head?, p c = false

theorem stops_of_forall (h : ∀ c ∈ xs, p c = false) : Stops p xs :=
  fun c hc => h c (List.mem_of_mem_head? hc)

theorem stops_append (hne : xs ≠ []) (hx : ∀ c ∈ xs, p c = false) (ys : List Char) :
    Stops p (xs ++ ys) := by
  cases xs with
  | nil => exact (hne rfl).elim
  | cons c rest =>
    intro d hd
    obtain rfl : c = d := by simpa using hd
    exact hx c List.mem_cons_self

theorem Stops.append (hy : Stops p ys) (hx : ∀ c ∈ xs, p c = false) : Stops p (xs ++ ys) := by
  by_cases hne : xs = []
  · rwa [hne, List.nil_append]
  · exact stops_append hne hx ys

theorem Stops.takeWhile (h : Stops p ys) : ys.takeWhile p = [] := by
  cases ys with
  | nil => rfl
  | cons c rest => simp [h c rfl]

theorem Stops.dropWhile (h : Stops p ys) : ys.dropWhile p = ys := by
  cases ys with
  | nil => rfl
  | cons c rest => simp [h c rfl]

theorem takeWhile_run (hx : ∀ c ∈ xs, p c = true) (hy : Stops p ys) :
    (xs ++ ys).takeWhile p = xs := by
  rw [List.takeWhile_append_of_pos hx, hy.takeWhile, List.append_nil]

theorem dropWhile_run (hx : ∀ c ∈ xs, p c = true) (hy : Stops p ys) :
    (xs ++ ys).dropWhile p = ys := by
  rw [List.dropWhile_append_of_pos hx, hy.dropWhile]

/-- Every text begins with a run, which may be empty, and a rest that stops it. -/
theorem exists_run (p : Char → Bool) (cs : List Char) :
    ∃ run rest, cs = run ++ rest ∧ (∀ c ∈ run, p c = true) ∧ Stops p rest := by
  refine ⟨cs.takeWhile p, cs.dropWhile p, List.takeWhile_append_dropWhile.symm,
    fun c hc => List.mem_takeWhile_imp hc, ?_⟩
  have hhead := List.head?_dropWhile_not p cs
  intro c hc
  rw [Option.mem_def] at hc
  simpa [hc] using hhead

end Runs

section Numbers

/-- A run of digits denotes the number that has them as its decimal digits, the last one first. -/
theorem digitsValue_eq (digits : List Char) :
    digitsValue digits = Nat.ofDigits 10 (digits.reverse.map fun c => c.toNat - '0'.toNat) := by
  unfold digitsValue
  induction digits using List.reverseRecOn with
  | nil => rfl
  | append_singleton rest c ih =>
    rw [Nat.ofDigitChars_append, ih, List.reverse_concat, List.map_cons, Nat.ofDigits_cons,
      Nat.ofDigitChars_cons, Nat.ofDigitChars_nil, Nat.add_comm]

theorem digitsValue_decimal (n : Nat) : digitsValue (decimal n) = n :=
  Nat.ofDigitChars_ten_toDigits

theorem decimal_ne_nil (n : Nat) : decimal n ≠ [] :=
  Nat.toDigits_ne_nil

theorem isDigit_of_mem_decimal {n : Nat} {c : Char} (h : c ∈ decimal n) : c.isDigit = true :=
  Nat.isDigit_of_mem_toDigits (by decide) (by decide) h

theorem int64?_eq_some_iff {n : Int} {w : Int64} : int64? n = some w ↔ w.toInt = n := by
  unfold int64?
  constructor
  · intro h
    split at h
    next hn =>
      cases h
      exact Int64.toInt_ofInt_of_le hn.1 hn.2
    next => cases h
  · rintro rfl
    rw [if_pos ⟨w.le_toInt, w.toInt_lt⟩, Int64.ofInt_toInt]

theorem uint32?_eq_some_iff {n : Nat} {w : UInt32} : uint32? n = some w ↔ w.toNat = n := by
  unfold uint32?
  constructor
  · intro h
    split at h
    next hn =>
      cases h
      exact UInt32.toNat_ofNat_of_lt' (by simpa using hn.2)
    next => cases h
  · rintro rfl
    have hw := w.toNat_lt
    rw [if_pos (by omega), Int.toNat_natCast, UInt32.ofNat_toNat]

end Numbers

end Offload
