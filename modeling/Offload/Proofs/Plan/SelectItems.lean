import Offload.Proofs.Plan.EmptyGroup

namespace Offload

theorem identifier_ne_asterisk (name : String) : identifier name ≠ "*" := by
  intro h
  have hlist := congrArg String.toList h
  simp [identifier, writeIdentifier] at hlist

/-- The SQL function has the name of the reducer in capitals, and counts distinct values as it counts all. -/
theorem Reducer.sqlFunction_eq (reducer : Reducer) :
    reducer.sqlFunction.toList =
      if reducer.name = "count_unique" then "COUNT".toList
      else reducer.name.toList.map Char.toUpper := by
  cases reducer <;> decide

/-- The SQL expression for the call of a reducer on a field, with the field as a quoted identifier. -/
def Reducer.quotedCall (reducer : Reducer) (field : String) : String :=
  match reducer with
  | .countUnique => "COUNT(DISTINCT " ++ identifier field ++ ")"
  | reducer => reducer.sqlFunction ++ "(" ++ identifier field ++ ")"

theorem Reducer.quotedCall_function {reducer : Reducer} (hr : reducer ≠ .countUnique) (field : String) :
    reducer.quotedCall field = reducer.sqlFunction ++ "(" ++ identifier field ++ ")" := by
  cases reducer with
  | countUnique => exact (hr rfl).elim
  | _ => rfl

namespace Aggregate

theorem sql_eq_iff {a : Aggregate} {expression target : String} :
    a.sql target = expression ++ " AS " ++ identifier target ↔ a.expression = expression := by
  rw [sql, String.append_left_inj, String.append_left_inj]

theorem expression_quoted (reducer : Reducer) {field : String} (hf : field ≠ "*") :
    (function reducer field).expression =
      reducer.sqlFunction ++ "(" ++ identifier field ++ ")" := by
  rw [expression, allRows, if_neg hf]

theorem expression_asterisk (reducer : Reducer) :
    (function reducer "*").expression = reducer.sqlFunction ++ "(*)" := by
  rw [expression, allRows, if_pos rfl, String.append_assoc, String.append_assoc]
  rfl

theorem expression_function_iff {reducer : Reducer} (hr : reducer ≠ .countUnique) (field : String) :
    (function reducer field).expression = reducer.quotedCall field ↔ field ≠ "*" := by
  rw [Reducer.quotedCall_function hr]
  constructor
  · rintro h rfl
    rw [expression, allRows, if_pos rfl, String.append_left_inj, String.append_right_inj] at h
    exact identifier_ne_asterisk "*" h.symm
  · exact expression_quoted reducer

/-- The function is read off the text in front of the parenthesis, and what is counted off the text
behind it. -/
theorem expression_eq_countAll_iff {reducer : Reducer} (hr : reducer ≠ .countUnique)
    (field : String) :
    (function reducer field).expression = "COUNT(*)" ↔ reducer = .count ∧ field = "*" := by
  by_cases hf : field = "*"
  · subst hf
    rw [expression_asterisk]
    cases reducer with
    | countUnique => exact (hr rfl).elim
    | _ => decide
  · rw [expression_quoted reducer hf]
    simp only [hf, and_false, iff_false]
    intro h
    have hlist := congrArg String.toList h
    cases reducer <;> simp [Reducer.sqlFunction, identifier, writeIdentifier] at hlist

theorem expression_countDistinct_ne (field : String) :
    (countDistinct field).expression ≠ "COUNT(*)" := by
  intro h
  have hlist := congrArg String.toList h
  simp [countDistinct, expression] at hlist

end Aggregate

namespace Assignment

variable {target : String}

/-- An output quotes the field of its call, unless the field is an asterisk and not counted by its distinct
values. -/
theorem Yields.quotes {name field : String} {output : Output}
    (h : Yields ⟨.field target, .call name [.string field]⟩ output) :
    Reducer.ofName? name = some output.reducer ∧
      (output.aggregate.expression = output.reducer.quotedCall field ↔
        output.reducer = .countUnique ∨ field ≠ "*") ∧
      (output.reducer ≠ .countUnique → field = "*" →
        output.aggregate.expression = output.reducer.sqlFunction ++ "(*)") := by
  cases h with
  | countDistinct =>
    exact ⟨rfl, ⟨fun _ => Or.inl rfl, fun _ => rfl⟩, fun hr => (hr rfl).elim⟩
  | @function _ _ reducer hr =>
    refine ⟨Reducer.ofName?_eq_some_iff.mpr rfl, ?_, ?_⟩
    · rw [Aggregate.expression_function_iff hr field]
      exact ⟨Or.inr, fun h => h.resolve_left hr⟩
    · rintro - rfl
      exact Aggregate.expression_asterisk reducer

theorem Yields.countAll_iff {value : RightSide} {output : Output}
    (h : Yields ⟨.field target, value⟩ output) :
    output.aggregate.expression = "COUNT(*)" ↔
      value = .call "count" [] ∨ value = .call "count" [.string "*"] := by
  cases h with
  | countAll => exact ⟨fun _ => Or.inl rfl, fun _ => rfl⟩
  | countDistinct _ field =>
    refine iff_of_false (Aggregate.expression_countDistinct_ne field) ?_
    simp
  | @function _ field reducer hr =>
    rw [Aggregate.expression_eq_countAll_iff hr]
    have hname : reducer.name = "count" ↔ reducer = .count := by
      cases reducer <;> decide
    simp [hname]

end Assignment

namespace Planner

variable {p : Planner} {read stage : Stage}

/-- Every assignment is found among the outputs under its target. -/
theorem Reduces.find?_output {summary : Summary} {outputs : List Output}
    (h : Reduces p read stage summary outputs) {target : String} {value : RightSide}
    (hm : ⟨.field target, value⟩ ∈ stage.assignments) :
    ∃ output, Assignment.Yields ⟨.field target, value⟩ output ∧
      summary.outputs.find? target = some output.aggregate := by
  obtain ⟨output, ho, hy⟩ := forall₂_mem_left (yields_of_outputs h.yields) _ hm
  obtain rfl : target = output.target := Option.some.inj hy.targetName
  refine ⟨output, hy, ?_⟩
  rw [Table.find?_eq_some_iff, h.lists.aggregates]
  exact List.mem_map.mpr ⟨output, ho, rfl⟩

/-- The select items of a reduction that is absorbed. The field of a call is a quoted identifier, unless it
is an asterisk and the call does not count distinct values: such a call stands for all rows, and a count of
it is not told from a count without a field. -/
theorem offer_select_items {prior d : Decision} (hk : stage.kind = .reduce)
    (ha : p.offer read prior stage = (d, none)) :
    (∀ target name field,
      (⟨.field target, .call name [.string field]⟩ : Assignment) ∈ stage.assignments →
      ∃ reducer aggregate, Reducer.ofName? name = some reducer ∧
        d.outputs.find? target = some aggregate ∧
        (aggregate.sql target = reducer.quotedCall field ++ " AS " ++ identifier target ↔
          reducer = .countUnique ∨ field ≠ "*") ∧
        (reducer ≠ .countUnique → field = "*" →
          aggregate.sql target = reducer.sqlFunction ++ "(*)" ++ " AS " ++ identifier target)) ∧
    (∀ target value, (⟨.field target, value⟩ : Assignment) ∈ stage.assignments →
      ∃ aggregate, d.outputs.find? target = some aggregate ∧
        (aggregate.sql target = "COUNT(*)" ++ " AS " ++ identifier target ↔
          value = .call "count" [] ∨ value = .call "count" [.string "*"])) := by
  have h := absorb_of_offer ha
  rw [absorb_reduce hk] at h
  obtain ⟨rfl, _⟩ := absorbReduce_eq_ok_iff.mp h
  obtain ⟨summary, outputs, rfl, hr⟩ := reduces_of_absorbReduce h
  refine ⟨?_, ?_⟩
  · intro target name field hm
    obtain ⟨output, hy, hfind⟩ := hr.find?_output hm
    obtain ⟨hname, hquotes, hrows⟩ := hy.quotes
    simp only [Aggregate.sql_eq_iff]
    exact ⟨output.reducer, output.aggregate, hname, hfind, hquotes, hrows⟩
  · intro target value hm
    obtain ⟨output, hy, hfind⟩ := hr.find?_output hm
    simp only [Aggregate.sql_eq_iff]
    exact ⟨output.aggregate, hfind, hy.countAll_iff⟩

/-- A name with a quote and an asterisk stay inside of their identifiers, next to a count of all rows. -/
theorem offer_select_items_odd_names :
    let stage := Stage.reduce [.ofField "sum" "a\"b", .ofField "count_unique" "*",
      ⟨.field "n", .call "count" []⟩]
    let offered := Planner.offer {} { kind := .read } .none stage
    offered.2 = none ∧
      (offered.1.outputs.find? "sum").map (Aggregate.sql · "sum") =
        some "SUM(\"a\"\"b\") AS \"sum\"" ∧
      (offered.1.outputs.find? "count_unique").map (Aggregate.sql · "count_unique") =
        some "COUNT(DISTINCT \"*\") AS \"count_unique\"" ∧
      (offered.1.outputs.find? "n").map (Aggregate.sql · "n") = some "COUNT(*) AS \"n\"" := by
  intro stage offered
  have hk : stage.kind = .reduce := rfl
  have hnone : offered.2 = none := by decide
  have ha : Planner.offer {} { kind := .read } .none stage = (offered.1, none) :=
    Prod.ext rfl hnone
  obtain ⟨hcalls, hcounts⟩ := offer_select_items hk ha
  obtain ⟨reducer, total, hname, htotal, hquoted, _⟩ :=
    hcalls "sum" "sum" "a\"b" List.mem_cons_self
  obtain rfl : reducer = .sum := Option.some.inj (hname.symm.trans (by decide))
  obtain ⟨reducer, distinct, hname, hdistinct, hquoted', _⟩ :=
    hcalls "count_unique" "count_unique" "*" (List.mem_cons_of_mem _ List.mem_cons_self)
  obtain rfl : reducer = .countUnique := Option.some.inj (hname.symm.trans (by decide))
  obtain ⟨rows, hrows, hall⟩ := hcounts "n" (.call "count" [])
    (List.mem_cons_of_mem _ (List.mem_cons_of_mem _ List.mem_cons_self))
  rw [htotal, hdistinct, hrows]
  have hsum := hquoted.mpr (Or.inr (by decide))
  have hunique := hquoted'.mpr (Or.inl rfl)
  have hcount := hall.mpr (Or.inl rfl)
  exact ⟨hnone, congrArg some (hsum.trans (by decide)), congrArg some (hunique.trans (by decide)),
    congrArg some (hcount.trans (by decide))⟩

/-- A count of the field with the name of an asterisk is written as a count of all rows. -/
theorem offer_count_asterisk :
    let stage := Stage.reduce [⟨.field "n", .call "count" [.string "*"]⟩]
    let offered := Planner.offer {} { kind := .read } .none stage
    offered.2 = none ∧
      (offered.1.outputs.find? "n").map (Aggregate.sql · "n") = some "COUNT(*) AS \"n\"" ∧
      "COUNT(*) AS \"n\"" ≠ Reducer.quotedCall .count "*" ++ " AS " ++ identifier "n" := by
  decide

end Planner

end Offload
