import Offload.Sql.Identifier

namespace Offload

/-- A text that cannot be taken for more of the identifier before it. -/
def NoQuote (more : List Char) : Prop :=
  more.head? ≠ some '"'

theorem noQuote_nil : NoQuote [] := by
  simp [NoQuote]

theorem noQuote_cons {c : Char} (hc : c ≠ '"') (more : List Char) : NoQuote (c :: more) := by
  simpa [NoQuote] using hc

theorem noQuote_or_quote (more : List Char) : NoQuote more ∨ ∃ rest, more = '"' :: rest := by
  by_cases h : more.head? = some '"'
  · exact Or.inr (List.head?_eq_some_iff.mp h)
  · exact Or.inl h

section Writing

theorem writeDoubled_append (name text more : List Char) :
    writeDoubled name (text ++ more) = writeDoubled name text ++ more := by
  induction name with
  | nil => rfl
  | cons c rest ih =>
    by_cases hc : c = '"'
    · simp [writeDoubled, hc, ih]
    · simp [writeDoubled, hc, ih]

theorem writeIdentifier_append (name more : List Char) :
    writeIdentifier name more = writeIdentifier name [] ++ more := by
  rw [writeIdentifier, writeIdentifier, List.cons_append, ← writeDoubled_append]
  rfl

theorem toList_identifier_append (name more : String) :
    (identifier name ++ more).toList = writeIdentifier name.toList more.toList := by
  rw [String.toList_append, identifier, String.toList_ofList, ← writeIdentifier_append]

end Writing

section Reading

variable {name more : List Char}

theorem quotedTail?_closing (hm : NoQuote more) : quotedTail? ('"' :: more) = some ([], more) := by
  cases more with
  | nil => rfl
  | cons c rest =>
    have hc : c ≠ '"' := by simpa [NoQuote] using hm
    rw [quotedTail?, if_pos rfl]
    rintro other - ho
    exact hc (List.cons.inj ho).1

/-- Reading passes a name with its quotes doubled, whatever text follows: no quote of the name is taken for
the closing one, and none is paired with a quote of that text. -/
theorem quotedTail?_writeDoubled (name text : List Char) :
    quotedTail? (writeDoubled name text) =
      (quotedTail? text).map fun found => (name ++ found.1, found.2) := by
  induction name with
  | nil => simp [writeDoubled]
  | cons c rest ih =>
    by_cases hc : c = '"'
    · simp [writeDoubled, quotedTail?, hc, ih, Function.comp_def]
    · simp [writeDoubled, quotedTail?, hc, ih, Function.comp_def]

theorem readIdentifier?_write (hm : NoQuote more) (name : List Char) :
    readIdentifier? (writeIdentifier name more) = some (name, more) := by
  rw [writeIdentifier, readIdentifier?, quotedTail?_writeDoubled, quotedTail?_closing hm,
    Option.map_some, List.append_nil]

/-- Before a quote the identifier goes on: what follows is read as if an identifier began there, and a quote
joins the two names. -/
theorem readIdentifier?_write_quote (name rest : List Char) :
    readIdentifier? (writeIdentifier name ('"' :: rest)) =
      (readIdentifier? ('"' :: rest)).map fun found => (name ++ '"' :: found.1, found.2) := by
  rw [writeIdentifier, readIdentifier?, readIdentifier?, quotedTail?_writeDoubled, quotedTail?,
    Option.map_map]
  rfl

theorem writeDoubled_of_quotedTail? {text : List Char} (h : quotedTail? text = some (name, more)) :
    text = writeDoubled name ('"' :: more) ∧ NoQuote more := by
  fun_induction quotedTail? text generalizing name with
  | case1 => cases h
  | case2 rest ih =>
    obtain ⟨found, hf, he⟩ := Option.map_eq_some_iff.mp h
    cases he
    obtain ⟨hrest, hm⟩ := ih hf
    exact ⟨by rw [writeDoubled, if_pos rfl, ← hrest], hm⟩
  | case3 rest single =>
    cases h
    -- The pattern of a doubled quote comes first, so no quote follows where the name ends.
    refine ⟨rfl, (noQuote_or_quote more).resolve_right ?_⟩
    rintro ⟨other, ho⟩
    exact single other rfl ho
  | case4 c rest _ hc ih =>
    obtain ⟨found, hf, he⟩ := Option.map_eq_some_iff.mp h
    cases he
    obtain ⟨hrest, hm⟩ := ih hf
    exact ⟨by rw [writeDoubled, if_neg hc, ← hrest], hm⟩

/-- Reading accepts what writing produces before a text that is not a quote, and nothing else. -/
theorem readIdentifier?_eq_some_iff {text : List Char} :
    readIdentifier? text = some (name, more) ↔ text = writeIdentifier name more ∧ NoQuote more := by
  constructor
  · intro h
    unfold readIdentifier? at h
    split at h
    next rest =>
      obtain ⟨hrest, hm⟩ := writeDoubled_of_quotedTail? h
      exact ⟨by rw [writeIdentifier, ← hrest], hm⟩
    next => cases h
  · rintro ⟨rfl, hm⟩
    exact readIdentifier?_write hm name

theorem suffix_of_readIdentifier? {text : List Char}
    (h : readIdentifier? text = some (name, more)) : more <:+ text := by
  obtain ⟨rfl, _⟩ := readIdentifier?_eq_some_iff.mp h
  rw [writeIdentifier_append]
  exact List.suffix_append _ _

/-- Reading takes in the whole name and stops no earlier than at the end of its identifier. -/
theorem readIdentifier?_write_whole {found rest : List Char}
    (h : readIdentifier? (writeIdentifier name more) = some (found, rest)) :
    name <+: found ∧ rest <:+ more := by
  rcases noQuote_or_quote more with hm | ⟨tail, rfl⟩
  · rw [readIdentifier?_write hm] at h
    cases h
    exact ⟨List.prefix_rfl, List.suffix_rfl⟩
  · rw [readIdentifier?_write_quote] at h
    obtain ⟨next, hn, he⟩ := Option.map_eq_some_iff.mp h
    cases he
    exact ⟨List.prefix_append _ _, suffix_of_readIdentifier? hn⟩

theorem writeIdentifier_split {name' more' : List Char} (hm : NoQuote more) (hm' : NoQuote more')
    (h : writeIdentifier name more = writeIdentifier name' more') :
    name = name' ∧ more = more' := by
  have hr := readIdentifier?_write hm name
  rw [h, readIdentifier?_write hm' name'] at hr
  exact Prod.mk.inj (Option.some.inj hr.symm)

end Reading

theorem identifier_injective : Function.Injective identifier := by
  intro name name' h
  have hw := String.ofList_inj.mp h
  exact String.toList_inj.mp (writeIdentifier_split noQuote_nil noQuote_nil hw).1

/-- A name is read and a text is left exactly if the identifier of the name stands before that text and the
text does not begin with a quote. No two names share an identifier. Whatever follows, a name does not end
its identifier early: all of it is read, and only what follows can be left. -/
theorem identifier_selfDelimiting :
    (∀ text name more : String,
      readIdentifier? text.toList = some (name.toList, more.toList) ↔
        text = identifier name ++ more ∧ more.toList.head? ≠ some '"') ∧
    Function.Injective identifier ∧
    (∀ (name more : String) (found rest : List Char),
      readIdentifier? (identifier name ++ more).toList = some (found, rest) →
        name.toList <+: found ∧ rest <:+ more.toList) := by
  refine ⟨?_, identifier_injective, ?_⟩
  · intro text name more
    rw [readIdentifier?_eq_some_iff, ← toList_identifier_append, String.toList_inj]
    rfl
  · intro name more found rest h
    rw [toList_identifier_append] at h
    exact readIdentifier?_write_whole h

/-- A name that ends in a run of quotes, apart from another identifier and right before it. -/
theorem identifier_selfDelimiting_run_of_quotes :
    " = \"b\"".toList.head? ≠ some '"' ∧
      readIdentifier? "\"a\"\"\"\"\" = \"b\"".toList = some ("a\"\"".toList, " = \"b\"".toList) ∧
      readIdentifier? "\"a\"\"\"\"\"\"b\" = ?".toList = some ("a\"\"\"b".toList, " = ?".toList) ∧
      "a\"\"".toList <+: "a\"\"\"b".toList ∧ " = ?".toList <:+ "\"b\" = ?".toList := by
  obtain ⟨hread, _, hwhole⟩ := identifier_selfDelimiting
  have hapart : " = \"b\"".toList.head? ≠ some '"' := by decide
  have hjoined : readIdentifier? (identifier "a\"\"" ++ "\"b\" = ?").toList =
      some ("a\"\"\"b".toList, " = ?".toList) := by decide
  exact ⟨hapart, (hread _ "a\"\"" " = \"b\"").mpr ⟨by decide, hapart⟩, hjoined,
    hwhole _ _ _ _ hjoined⟩

end Offload
