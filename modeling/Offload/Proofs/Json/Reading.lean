import Offload.Json.Reader
import Offload.Proofs.Text

namespace Offload

/-- The pieces of a string in which nothing is a surrogate half. -/
def Piece.ofText (text : String) : List Piece :=
  text.toList.map .char

/-- The literal of a whole number. -/
def Numeral.ofInt (n : Int) : Numeral :=
  ⟨n < 0, decimal n.natAbs, [], none⟩

namespace Json

mutual

/-- The structure of the text of a value. How a double is written is left open. -/
def raw? : Json → Option RawJson
  | .null => some .null
  | .bool value => some (.bool value)
  | .int n => some (.number (.ofInt n))
  | .double _ => none
  | .string text => some (.string (Piece.ofText text))
  | .array items => (rawItems? items).map .array
  | .object members => (rawMembers? members).map .object

def rawItems? : List Json → Option (List RawJson)
  | [] => some []
  | item :: rest => do
    let raw ← item.raw?
    return raw :: (← rawItems? rest)

def rawMembers? : List (String × Json) → Option (List (List Piece × RawJson))
  | [] => some []
  | (key, value) :: rest => do
    let raw ← value.raw?
    return (Piece.ofText key, raw) :: (← rawMembers? rest)

end

end Json

theorem Piece.text?_ofText (text : String) : text? (ofText text) = some text.toList := by
  unfold Piece.ofText
  induction text.toList with
  | nil => rfl
  | cons c rest ih => simp only [List.map_cons, Piece.text?, ih, Option.map_some]

theorem Numeral.int?_ofInt {n : Int} (hlow : -9223372036854775808 ≤ n)
    (hhigh : n < 18446744073709551616) : (Numeral.ofInt n).int? = some n := by
  simp only [int?, ofInt, digitsValue_decimal, List.isEmpty_nil, Bool.not_true,
    Option.isSome_none, Bool.or_self, Bool.false_eq_true, ↓reduceIte, decide_eq_true_eq]
  by_cases hn : n < 0
  · rw [if_pos hn, if_pos (by omega)]
    exact congrArg some (by omega)
  · rw [if_neg hn, if_pos (by omega)]
    exact congrArg some (by omega)

namespace RawJson

section Strings

theorem hexDigit?_digitChar {n : Nat} (hn : n < 16) : hexDigit? (Nat.digitChar n) = some n := by
  have hall : ∀ digit : Fin 16, hexDigit? (Nat.digitChar digit) = some digit.val := by decide
  exact hall ⟨n, hn⟩

/-- The escape with four hexadecimal digits that a control character is written as. -/
theorem hexUnit?_control {c : Char} (hc : c.toNat < 0x20) :
    hexUnit? '0' '0' (Nat.digitChar (c.toNat / 16)) (Nat.digitChar (c.toNat % 16)) =
      some c.toNat := by
  have hzero : hexDigit? '0' = some 0 := by decide
  have hfirst := hexDigit?_digitChar (show c.toNat / 16 < 16 by omega)
  have hsecond := hexDigit?_digitChar (show c.toNat % 16 < 16 by omega)
  have hvalue : ((0 * 16 + 0) * 16 + c.toNat / 16) * 16 + c.toNat % 16 = c.toNat := by omega
  simp only [hexUnit?, hzero, hfirst, hsecond, hvalue, Option.bind_eq_bind, Option.bind_some,
    Option.pure_def]

theorem unitPiece_control {c : Char} (hc : c.toNat < 0x20) : unitPiece c.toNat = .char c := by
  have hplain : ¬(0xD800 ≤ c.toNat ∧ c.toNat ≤ 0xDFFF) := by omega
  rw [unitPiece, if_neg hplain, Char.ofNat_toNat]

theorem pieces?_plain {c : Char} {rest more : List Char} {pieces : List Piece}
    (hc : ¬c.toNat < 0x20) (hquote : c ≠ '"') (hslash : c ≠ '\\')
    (h : pieces? rest = some (pieces, more)) :
    pieces? (c :: rest) = some (.char c :: pieces, more) := by
  have hgood : ¬(c.toNat < 0x20 ∨ c = '\\') := by simp [hc, hslash]
  rw [pieces?.eq_def]
  split
  next heq => cases heq
  next heq => exact (hquote (List.cons.inj heq).1).elim
  next heq => exact (hslash (List.cons.inj heq).1).elim
  next heq => exact (hslash (List.cons.inj heq).1).elim
  next heq =>
    obtain ⟨rfl, rfl⟩ := List.cons.inj heq
    rw [if_neg hgood, h]
    rfl

theorem pieces?_escape {c : Char} {rest more : List Char} {pieces : List Piece}
    (h : pieces? rest = some (pieces, more)) :
    pieces? (Json.escape c ++ rest) = some (.char c :: pieces, more) := by
  unfold Json.escape
  split
  case h_8 hquote hslash _ _ _ _ _ =>
    split
    next hc =>
      simp only [List.cons_append, List.nil_append, pieces?, hexUnit?_control hc,
        unitPiece_control hc, h, Option.bind_eq_bind, Option.bind_some, Option.pure_def]
    next hc => exact pieces?_plain hc hquote hslash h
  all_goals simp [pieces?, escaped?, h]

theorem pieces?_writeEscaped (cs more : List Char) :
    pieces? (Json.writeEscaped cs ('"' :: more)) = some (cs.map .char, more) := by
  induction cs with
  | nil => simp only [Json.writeEscaped, pieces?, List.map_nil]
  | cons c rest ih =>
    rw [Json.writeEscaped, List.map_cons]
    exact pieces?_escape ih

end Strings

section Numbers

/-- A text that does not go on with a number in front of it. -/
def EndsNumber (more : List Char) : Prop :=
  Stops (fun c => c.isDigit || c == '.' || c == 'e' || c == 'E') more

theorem endsNumber_nil : EndsNumber [] := by
  intro c hc
  cases hc

theorem endsNumber_cons {c : Char} (hc : c = ',' ∨ c = ']' ∨ c = '\x7d') (rest : List Char) :
    EndsNumber (c :: rest) := by
  intro d hd
  obtain rfl : c = d := by simpa using hd
  rcases hc with rfl | rfl | rfl <;> decide

theorem EndsNumber.stops {more : List Char} (h : EndsNumber more) : Stops Char.isDigit more := by
  intro c hc
  have hstop := h c hc
  simp only [Bool.or_eq_false_iff] at hstop
  exact hstop.1.1.1

theorem EndsNumber.fraction? {more : List Char} (h : EndsNumber more) :
    fraction? more = some ([], more) := by
  unfold RawJson.fraction?
  split
  next rest => exact absurd (h '.' rfl) (by decide)
  next => rfl

theorem EndsNumber.exponent? {more : List Char} (h : EndsNumber more) :
    exponent? more = some (none, more) := by
  cases more with
  | nil => rfl
  | cons c rest =>
    have hstop := h c rfl
    simp only [Bool.or_eq_false_iff, beq_eq_false_iff_ne] at hstop
    have hletter : ¬(c = 'e' ∨ c = 'E') := by simp [hstop.1.2, hstop.2]
    simp only [RawJson.exponent?, if_neg hletter]

theorem decimal_head_ne_zero {n : Nat} (hn : 0 < n) : (decimal n).head? ≠ some '0' := by
  induction n using Nat.strongRecOn with
  | ind n ih =>
    unfold decimal
    rw [Nat.toDigits_eq_if (by decide)]
    split
    next => simp [Nat.ne_of_gt hn]
    next hlarge =>
      have hhead := ih (n / 10) (by omega) (by omega)
      obtain ⟨c, rest, hdigits⟩ := List.exists_cons_of_ne_nil (decimal_ne_nil (n / 10))
      unfold decimal at hhead hdigits
      rw [hdigits] at hhead ⊢
      exact hhead

/-- No digits are written in front of a number, not even for zero. -/
theorem decimal_ne_padded (n : Nat) (c : Char) (rest : List Char) : decimal n ≠ '0' :: c :: rest := by
  intro h
  rcases Nat.eq_zero_or_pos n with rfl | hn
  · simp [decimal] at h
  · exact decimal_head_ne_zero hn (by rw [h]; rfl)

theorem whole?_decimal (n : Nat) {more : List Char} (h : EndsNumber more) :
    whole? (decimal n ++ more) = some (decimal n, more) := by
  have hdigits : ∀ c ∈ decimal n, c.isDigit = true := fun c hc => isDigit_of_mem_decimal hc
  have hspan : spanDigits (decimal n ++ more) = (decimal n, more) := by
    rw [spanDigits, takeWhile_run hdigits h.stops, dropWhile_run hdigits h.stops]
  unfold whole?
  rw [hspan]
  split
  next heq => exact (decimal_ne_nil n (Prod.mk.inj heq).1).elim
  next heq => exact (decimal_ne_padded n _ _ (Prod.mk.inj heq).1).elim
  next => rfl

theorem numeral?_decimal (negative : Bool) (n : Nat) {more : List Char} (h : EndsNumber more) :
    numeral? negative (decimal n ++ more) = some (⟨negative, decimal n, [], none⟩, more) := by
  simp only [numeral?, whole?_decimal n h, h.fraction?, h.exponent?, Option.bind_eq_bind,
    Option.bind_some, Option.pure_def]

end Numbers

section Values

/-- What a text begins with decides how it is read. -/
theorem value?_scalar {c : Char} (hspace : isSpace c = false) (hbracket : c ≠ '[')
    (hbrace : c ≠ '\x7b') (rest : List Char) (fuel : Nat) :
    value? (fuel + 1) (c :: rest) = scalar? (c :: rest) := by
  have hskip : skipSpace (c :: rest) = c :: rest := by simp [skipSpace, hspace]
  rw [value?, hskip]
  split
  next heq => exact (hbracket (List.cons.inj heq).1).elim
  next heq => exact (hbrace (List.cons.inj heq).1).elim
  next => rfl

theorem scalar?_digit {c : Char} (hc : c.isDigit = true) (rest : List Char) :
    scalar? (c :: rest) =
      (numeral? false (c :: rest)).map fun (literal, more) => (.number literal, more) := by
  unfold scalar?
  split
  case h_6 => rfl
  all_goals
    next heq =>
      obtain ⟨rfl, _⟩ := List.cons.inj heq
      simp at hc

theorem value?_digit {c : Char} (hc : c.isDigit = true) (rest : List Char) (fuel : Nat) :
    value? (fuel + 1) (c :: rest) = scalar? (c :: rest) := by
  apply value?_scalar
  · refine Bool.eq_false_iff.mpr fun hspace => ?_
    simp only [isSpace, Bool.or_eq_true, beq_iff_eq] at hspace
    rcases hspace with ((rfl | rfl) | rfl) | rfl <;> simp at hc
  · rintro rfl
    simp at hc
  · rintro rfl
    simp at hc

theorem value?_int (n : Int) {more : List Char} (h : EndsNumber more) (fuel : Nat) :
    value? (fuel + 1) (signedDecimal n ++ more) = some (.number (.ofInt n), more) := by
  cases n with
  | ofNat n =>
    have hread := numeral?_decimal false n h
    obtain ⟨c, rest, hdigits⟩ := List.exists_cons_of_ne_nil (decimal_ne_nil n)
    have hc : c.isDigit = true := isDigit_of_mem_decimal (hdigits ▸ List.mem_cons_self)
    have hliteral : Numeral.ofInt (.ofNat n) = ⟨false, decimal n, [], none⟩ := by
      simp [Numeral.ofInt]
    rw [hliteral, signedDecimal]
    rw [hdigits, List.cons_append] at hread ⊢
    rw [value?_digit hc, scalar?_digit hc, hread, Option.map_some]
  | negSucc n =>
    have hread := numeral?_decimal true (n + 1) h
    have hliteral : Numeral.ofInt (.negSucc n) = ⟨true, decimal (n + 1), [], none⟩ := by
      simp [Numeral.ofInt]
    rw [hliteral, signedDecimal, List.cons_append,
      value?_scalar (by decide) (by decide) (by decide)]
    simp only [scalar?, hread, Option.map_some]

theorem value?_string (text : String) (more : List Char) (fuel : Nat) :
    value? (fuel + 1) (Json.writeString text more) = some (.string (Piece.ofText text), more) := by
  rw [Json.writeString, value?_scalar (by decide) (by decide) (by decide)]
  simp only [scalar?, pieces?_writeEscaped, Option.map_some, Piece.ofText]

theorem name?_writeString (key : String) (more : List Char) :
    name? (Json.writeString key (':' :: more)) = some (Piece.ofText key, more) := by
  have hquote : ∀ rest, skipSpace ('"' :: rest) = '"' :: rest := fun _ => rfl
  have hcolon : skipSpace (':' :: more) = ':' :: more := rfl
  simp only [name?, Json.writeString, hquote, pieces?_writeEscaped, hcolon, Option.bind_eq_bind,
    Option.bind_some, Option.pure_def, Piece.ofText]

end Values

section Brackets

variable {text rest more : List Char} {fuel : Nat}

theorem value?_closing (h : skipSpace text = ']' :: rest) (fuel : Nat) : value? fuel text = none := by
  cases fuel with
  | zero => rw [value?]
  | succ fuel =>
    rw [value?, h]
    rfl

theorem items?_last {raw : RawJson} (h : value? fuel text = some (raw, ']' :: more)) :
    items? (fuel + 1) text = some ([raw], more) := by
  have hskip : skipSpace (']' :: more) = ']' :: more := rfl
  simp only [items?, h, hskip, Option.bind_eq_bind, Option.bind_some, Option.pure_def]

theorem items?_more {raw : RawJson} {raws : List RawJson}
    (h : value? fuel text = some (raw, ',' :: rest)) (hrest : items? fuel rest = some (raws, more)) :
    items? (fuel + 1) text = some (raw :: raws, more) := by
  have hskip : skipSpace (',' :: rest) = ',' :: rest := rfl
  simp only [items?, h, hskip, hrest, Option.bind_eq_bind, Option.bind_some, Option.pure_def]

theorem members?_last {name : List Piece} {raw : RawJson} (hname : name? text = some (name, rest))
    (h : value? fuel rest = some (raw, '\x7d' :: more)) :
    members? (fuel + 1) text = some ([(name, raw)], more) := by
  have hskip : skipSpace ('\x7d' :: more) = '\x7d' :: more := rfl
  simp only [members?, hname, h, hskip, Option.bind_eq_bind, Option.bind_some, Option.pure_def]

theorem members?_more {name : List Piece} {raw : RawJson} {raws : List (List Piece × RawJson)}
    {later : List Char} (hname : name? text = some (name, rest))
    (h : value? fuel rest = some (raw, ',' :: later))
    (hlater : members? fuel later = some (raws, more)) :
    members? (fuel + 1) text = some ((name, raw) :: raws, more) := by
  have hskip : skipSpace (',' :: later) = ',' :: later := rfl
  simp only [members?, hname, h, hskip, hlater, Option.bind_eq_bind, Option.bind_some,
    Option.pure_def]

/-- A text with items does not begin with the closing bracket. -/
theorem value?_array {raws : List RawJson} (h : items? fuel text = some (raws, more)) :
    value? (fuel + 1) ('[' :: text) = some (.array raws, more) := by
  have hskip : skipSpace ('[' :: text) = '[' :: text := rfl
  simp only [value?, hskip]
  split
  next heq =>
    cases fuel with
    | zero => cases h
    | succ fuel => simp [items?, value?_closing heq] at h
  next => rw [h, Option.map_some]

theorem value?_object {raws : List (List Piece × RawJson)}
    (h : members? fuel text = some (raws, more)) :
    value? (fuel + 1) ('\x7b' :: text) = some (.object raws, more) := by
  have hskip : skipSpace ('\x7b' :: text) = '\x7b' :: text := rfl
  simp only [value?, hskip]
  split
  next heq =>
    cases fuel with
    | zero => cases h
    | succ fuel => simp [members?, name?, heq] at h
  next => rw [h, Option.map_some]

end Brackets

end RawJson

namespace Json

section Suffixes

theorem suffix_writeEscaped (cs more : List Char) : more <:+ writeEscaped cs more := by
  induction cs with
  | nil => exact List.suffix_refl more
  | cons c rest ih => exact ih.trans (List.suffix_append (escape c) _)

theorem suffix_writeString (text : String) (more : List Char) : more <:+ writeString text more := by
  have hquote := List.suffix_cons '"' more
  have hescaped := suffix_writeEscaped text.toList ('"' :: more)
  exact (hquote.trans hescaped).trans (List.suffix_cons '"' _)

mutual

/-- What follows a value is the end of the text. -/
theorem suffix_write (value : Json) (more : List Char) : more <:+ value.write more := by
  match value with
  | .null => exact List.suffix_append "null".toList more
  | .bool true => exact List.suffix_append "true".toList more
  | .bool false => exact List.suffix_append "false".toList more
  | .int n => exact List.suffix_append (signedDecimal n) more
  | .double x => exact List.suffix_append _ more
  | .string text => exact suffix_writeString text more
  | .array [] => exact List.suffix_append ['[', ']'] more
  | .array (item :: rest) =>
    have hrest := suffix_writeItems rest more
    have hitem := suffix_write item (writeItems rest more)
    exact (hrest.trans hitem).trans (List.suffix_cons '[' _)
  | .object [] => exact List.suffix_append ['\x7b', '\x7d'] more
  | .object ((key, value) :: rest) =>
    have hrest := suffix_writeMembers rest more
    have hvalue := suffix_write value (writeMembers rest more)
    have hcolon := List.suffix_cons ':' (value.write (writeMembers rest more))
    have hkey := suffix_writeString key (':' :: value.write (writeMembers rest more))
    exact (((hrest.trans hvalue).trans hcolon).trans hkey).trans (List.suffix_cons '\x7b' _)

theorem suffix_writeItems (items : List Json) (more : List Char) :
    more <:+ writeItems items more := by
  match items with
  | [] => exact List.suffix_cons ']' more
  | item :: rest =>
    have hrest := suffix_writeItems rest more
    have hitem := suffix_write item (writeItems rest more)
    exact (hrest.trans hitem).trans (List.suffix_cons ',' _)

theorem suffix_writeMembers (members : List (String × Json)) (more : List Char) :
    more <:+ writeMembers members more := by
  match members with
  | [] => exact List.suffix_cons '\x7d' more
  | (key, value) :: rest =>
    have hrest := suffix_writeMembers rest more
    have hvalue := suffix_write value (writeMembers rest more)
    have hcolon := List.suffix_cons ':' (value.write (writeMembers rest more))
    have hkey := suffix_writeString key (':' :: value.write (writeMembers rest more))
    exact (((hrest.trans hvalue).trans hcolon).trans hkey).trans (List.suffix_cons ',' _)

end

end Suffixes

section Structure

open RawJson

theorem rawItems?_cons {item : Json} {rest : List Json} {raws : List RawJson}
    (h : rawItems? (item :: rest) = some raws) :
    ∃ raw others, item.raw? = some raw ∧ rawItems? rest = some others ∧ raws = raw :: others := by
  obtain ⟨raw, hitem, h⟩ := Option.bind_eq_some_iff.mp h
  obtain ⟨others, hrest, h⟩ := Option.bind_eq_some_iff.mp h
  exact ⟨raw, others, hitem, hrest, (Option.some.inj h).symm⟩

theorem rawMembers?_cons {key : String} {value : Json} {rest : List (String × Json)}
    {raws : List (List Piece × RawJson)} (h : rawMembers? ((key, value) :: rest) = some raws) :
    ∃ raw others, value.raw? = some raw ∧ rawMembers? rest = some others ∧
      raws = (Piece.ofText key, raw) :: others := by
  obtain ⟨raw, hvalue, h⟩ := Option.bind_eq_some_iff.mp h
  obtain ⟨others, hrest, h⟩ := Option.bind_eq_some_iff.mp h
  exact ⟨raw, others, hvalue, hrest, (Option.some.inj h).symm⟩

mutual

/-- The text of a value is read as its structure, and what follows is left. -/
theorem value?_write (value : Json) {raw : RawJson} (h : value.raw? = some raw) {more : List Char}
    (hmore : EndsNumber more) {fuel : Nat} (hfuel : 2 * (value.write more).length < fuel) :
    value? fuel (value.write more) = some (raw, more) := by
  obtain ⟨fuel, rfl⟩ : ∃ left, fuel = left + 1 := ⟨fuel - 1, by omega⟩
  match value with
  | .null =>
    cases h
    rfl
  | .bool true =>
    cases h
    rfl
  | .bool false =>
    cases h
    rfl
  | .int n =>
    cases h
    exact value?_int n hmore fuel
  | .double x => cases h
  | .string text =>
    cases h
    exact value?_string text more fuel
  | .array [] =>
    cases h
    rfl
  | .array (item :: rest) =>
    obtain ⟨raws, hraws, rfl⟩ := Option.map_eq_some_iff.mp h
    -- a bracket takes two steps, one for the value and one for its first item
    have hbound : 2 * (item.write (writeItems rest more)).length + 1 < fuel := by
      change 2 * ((item.write (writeItems rest more)).length + 1) < fuel + 1 at hfuel
      omega
    exact value?_array (items?_write (item :: rest) hraws rfl hbound)
  | .object [] =>
    cases h
    rfl
  | .object ((key, value) :: rest) =>
    obtain ⟨raws, hraws, rfl⟩ := Option.map_eq_some_iff.mp h
    let text := writeString key (':' :: value.write (writeMembers rest more))
    have hbound : 2 * text.length + 1 < fuel := by
      change 2 * (text.length + 1) < fuel + 1 at hfuel
      omega
    exact value?_object (members?_write ((key, value) :: rest) hraws rfl hbound)

theorem items?_write (items : List Json) {raws : List RawJson} (h : rawItems? items = some raws)
    {more text : List Char} (htext : writeItems items more = ',' :: text) {fuel : Nat}
    (hfuel : 2 * text.length + 1 < fuel) : items? fuel text = some (raws, more) := by
  obtain ⟨fuel, rfl⟩ : ∃ left, fuel = left + 1 := ⟨fuel - 1, by omega⟩
  match items with
  | [] => cases htext
  | [item] =>
    obtain ⟨raw, others, hitem, hrest, rfl⟩ := rawItems?_cons h
    cases hrest
    obtain rfl : item.write (']' :: more) = text := (List.cons.inj htext).2
    have hvalue : value? fuel (item.write (']' :: more)) = some (raw, ']' :: more) :=
      value?_write item hitem (endsNumber_cons (Or.inr (Or.inl rfl)) more) (by omega)
    exact items?_last hvalue
  | item :: next :: rest =>
    -- the text of the rest begins with the comma after the item
    obtain ⟨raw, others, hitem, hrest, rfl⟩ := rawItems?_cons h
    obtain ⟨later, hlater⟩ : ∃ later, writeItems (next :: rest) more = ',' :: later := ⟨_, rfl⟩
    obtain rfl : item.write (',' :: later) = text := by
      rw [← hlater]
      exact (List.cons.inj htext).2
    have hlength := (suffix_write item (',' :: later)).length_le
    rw [List.length_cons] at hlength
    have hvalue : value? fuel (item.write (',' :: later)) = some (raw, ',' :: later) :=
      value?_write item hitem (endsNumber_cons (Or.inl rfl) later) (by omega)
    exact items?_more hvalue (items?_write (next :: rest) hrest hlater (by omega))

theorem members?_write (members : List (String × Json)) {raws : List (List Piece × RawJson)}
    (h : rawMembers? members = some raws) {more text : List Char}
    (htext : writeMembers members more = ',' :: text) {fuel : Nat}
    (hfuel : 2 * text.length + 1 < fuel) : members? fuel text = some (raws, more) := by
  obtain ⟨fuel, rfl⟩ : ∃ left, fuel = left + 1 := ⟨fuel - 1, by omega⟩
  match members with
  | [] => cases htext
  | [(key, value)] =>
    obtain ⟨raw, others, hraw, hrest, rfl⟩ := rawMembers?_cons h
    cases hrest
    obtain rfl : writeString key (':' :: value.write ('\x7d' :: more)) = text :=
      (List.cons.inj htext).2
    have hkey := (suffix_writeString key (':' :: value.write ('\x7d' :: more))).length_le
    rw [List.length_cons] at hkey
    have hvalue : value? fuel (value.write ('\x7d' :: more)) = some (raw, '\x7d' :: more) :=
      value?_write value hraw (endsNumber_cons (Or.inr (Or.inr rfl)) more) (by omega)
    exact members?_last (name?_writeString key _) hvalue
  | (key, value) :: next :: rest =>
    obtain ⟨raw, others, hraw, hrest, rfl⟩ := rawMembers?_cons h
    obtain ⟨later, hlater⟩ : ∃ later, writeMembers (next :: rest) more = ',' :: later := ⟨_, rfl⟩
    obtain rfl : writeString key (':' :: value.write (',' :: later)) = text := by
      rw [← hlater]
      exact (List.cons.inj htext).2
    have hkey := (suffix_writeString key (':' :: value.write (',' :: later))).length_le
    have hlength := (suffix_write value (',' :: later)).length_le
    rw [List.length_cons] at hkey hlength
    have hvalue : value? fuel (value.write (',' :: later)) = some (raw, ',' :: later) :=
      value?_write value hraw (endsNumber_cons (Or.inl rfl) later) (by omega)
    exact members?_more (name?_writeString key _) hvalue
      (members?_write (next :: rest) hrest hlater (by omega))

end

/-- The text of a value is read as its structure. -/
theorem parse?_text {value : Json} {raw : RawJson} (h : value.raw? = some raw) :
    RawJson.parse? value.text.toList = some raw := by
  have hbound : 2 * (value.write []).length < 2 * (value.write []).length + 2 := by omega
  rw [text, String.toList_ofList, RawJson.parse?, value?_write value h endsNumber_nil hbound]
  rfl

end Structure

end Json

end Offload
