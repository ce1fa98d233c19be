import Offload.Filter.Meaning
import Offload.Proofs.Filter.Shape

namespace Offload

namespace Truth

@[simp]
theorem and_holds (t : Truth) : t.and .holds = t := by
  cases t <;> rfl

@[simp]
theorem holds_and (t : Truth) : Truth.holds.and t = t := by
  cases t <;> rfl

theorem and_assoc (a b c : Truth) : (a.and b).and c = a.and (b.and c) := by
  cases a <;> cases b <;> cases c <;> rfl

end Truth

namespace Entry

/-- Without a disjunction, precedence has nothing to decide. -/
theorem joinedTruth_conjunction (v : Valuation) (run : Truth) {entries : List Entry}
    (ha : ∀ entry ∈ entries, entry.connector = .and) :
    joinedTruth v run entries = run.and (Truth.all (entries.map (truth v))) := by
  induction entries generalizing run with
  | nil => simp [joinedTruth, Truth.all]
  | cons entry rest ih =>
    have hc : entry.connector = .and := ha entry (by simp)
    have hr := ih (run.and (entry.truth v)) (fun other ho => ha other (List.mem_cons_of_mem _ ho))
    simp only [joinedTruth, hc, hr, List.map_cons, Truth.all, Truth.and_assoc]

theorem truth_joined_and (v : Valuation) (left right : Entry) :
    (joined .and left right).truth v = (left.truth v).and (right.truth v) := by
  simp [joined, truth, joinedTruth, connector, negateIf]

theorem truth_joined_or (v : Valuation) (left right : Entry) :
    (joined .or left right).truth v = (left.truth v).or (right.truth v) := by
  simp [joined, truth, joinedTruth, connector, negateIf]

theorem truth_compare (v : Valuation) (left : Operand) (token : String) (right : Operand) :
    (compare .and false left token right).truth v = v left token right := by
  simp [truth, negateIf]

theorem truth_negated (v : Valuation) (content : Entry) :
    (group .and true [content]).truth v = (content.truth v).not := by
  simp [truth, joinedTruth, negateIf]

end Entry

namespace Condition

theorem truth_conjunction (v : Valuation) {c : Condition}
    (ha : ∀ entry ∈ c.entries, entry.connector = .and) :
    c.truth v = Truth.all (c.entries.map (Entry.truth v)) := by
  obtain ⟨entries⟩ := c
  cases entries with
  | nil => rfl
  | cons first rest =>
    have hr : ∀ entry ∈ rest, entry.connector = .and := fun entry he =>
      ha entry (List.mem_cons_of_mem _ he)
    exact Entry.joinedTruth_conjunction v (first.truth v) hr

end Condition

namespace Expr

theorem comparisonToken_of_ofText {op token : String}
    (h : FilterOperator.ofText op = .compare token) : comparisonToken op = token := by
  revert h
  fun_cases FilterOperator.ofText op with
  | case1 => intro h; cases h; rfl
  | case2 => intro h; cases h; rfl
  | case3 => intro h; cases h; rfl
  | case4 => intro h; cases h; rfl
  | case5 => intro h; cases h
  | case6 => intro h; cases h
  | case7 => intro h; cases h; simp_all [comparisonToken]

/-- The entry of a filter is true exactly where its tree is. -/
theorem truth?_eq (v : Valuation) (e : Expr) :
    e.truth? v = e.entry.toOption.map (Entry.truth v) := by
  fun_induction Expr.entry e with
  | case1 op left right hop ihl ihr =>
    obtain rfl := FilterOperator.eq_of_ofText_and hop
    simp only [truth?, ↓reduceIte, ihl, ihr]
    cases left.entry with
    | error fault => rfl
    | ok l =>
      cases right.entry with
      | error fault => rfl
      | ok r => exact congrArg some (Entry.truth_joined_and v l r).symm
  | case2 op left right hop ihl ihr =>
    obtain rfl := FilterOperator.eq_of_ofText_or hop
    have hand : ¬"OR" = "AND" := by decide
    simp only [truth?, hand, ↓reduceIte, ihl, ihr]
    cases left.entry with
    | error fault => rfl
    | ok l =>
      cases right.entry with
      | error fault => rfl
      | ok r => exact congrArg some (Entry.truth_joined_or v l r).symm
  | case3 op left right token hop =>
    obtain ⟨hand, hor⟩ := not_or.mp (FilterOperator.of_ofText_compare hop).1
    obtain rfl := comparisonToken_of_ofText hop
    simp only [truth?, if_neg hand, if_neg hor]
    cases left.operand with
    | error fault => rfl
    | ok l =>
      cases right.rightOperand (.compare (comparisonToken op)) with
      | error fault => rfl
      | ok r => exact congrArg some (Entry.truth_compare v l (comparisonToken op) r).symm
  | case4 argument ih =>
    simp only [truth?, ↓reduceIte, ih]
    cases argument.entry with
    | error fault => rfl
    | ok content => exact congrArg some (Entry.truth_negated v content).symm
  | case5 op argument hop =>
    simp only [truth?, hop, ↓reduceIte]
    rfl
  | case6 e hb hu =>
    cases e with
    | binary op left right => exact (hb op left right rfl).elim
    | unary op argument => exact (hu op argument rfl).elim
    | _ => rfl

/-- Compiles filters one after another into one condition, on which those that do not compile are passed
over: the condition in the end, and the filters that compiled. -/
def compileInTurn : List Expr → Condition → Condition × List Expr
  | [], c => (c, [])
  | e :: rest, c =>
    match e.compile c with
    | (next, none) => ((compileInTurn rest next).1, e :: (compileInTurn rest next).2)
    | (next, some _) => compileInTurn rest next

theorem compileInTurn_eq (filters : List Expr) (c : Condition) :
    compileInTurn filters c =
      (⟨c.entries ++ filters.filterMap fun e => e.entry.toOption⟩,
        filters.filter fun e => e.entry.toOption.isSome) := by
  induction filters generalizing c with
  | nil => simp [compileInTurn]
  | cons e rest ih =>
    simp only [compileInTurn, compile_eq]
    cases he : e.entry with
    | error fault => simp [Condition.append, ih, he, Except.toOption]
    | ok found => simp [Condition.append, ih, he, Except.toOption]

theorem entries_compileInTurn_connector (filters : List Expr) :
    ∀ found ∈ (compileInTurn filters {}).1.entries, found.connector = .and := by
  intro found hf
  simp only [compileInTurn_eq, List.nil_append] at hf
  obtain ⟨e, _, he⟩ := List.mem_filterMap.mp hf
  cases hr : e.entry with
  | error fault => simp [hr, Except.toOption] at he
  | ok entry =>
    have hs : entry = found := by simpa [hr, Except.toOption] using he
    exact hs ▸ entry_connector hr

/-- The truth of a condition is the conjunction of the filters that compiled into it, and these are the
filters that have a meaning. -/
theorem truth_compileInTurn (v : Valuation) (filters : List Expr) :
    (compileInTurn filters {}).1.truth v =
        Truth.all ((compileInTurn filters {}).2.filterMap (truth? v)) ∧
      (compileInTurn filters {}).2 = filters.filter fun e => (e.truth? v).isSome := by
  constructor
  · rw [Condition.truth_conjunction v (entries_compileInTurn_connector filters)]
    have hm : ∀ e : Expr, (e.entry.toOption.map (Entry.truth v)) =
        if e.entry.toOption.isSome then e.truth? v else none := by
      intro e
      rw [truth?_eq]
      cases e.entry.toOption <;> rfl
    simp only [compileInTurn_eq, List.nil_append, List.map_filterMap, List.filterMap_filter, hm]
  · simp [compileInTurn_eq, truth?_eq]

end Expr

end Offload
