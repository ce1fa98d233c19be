import Offload.Proofs.Filter.Entry

namespace Offload

namespace FilterOperator

/-- The tokens of comparisons that have a name of their own in filters. -/
def renamedTokens : List String :=
  ["=", "<>", "LIKE", "NOT LIKE"]

theorem ofText_cases (op : String) :
    (op = "AND" ∧ ofText op = .and) ∨ (op = "OR" ∧ ofText op = .or) ∨
      (¬(op = "AND" ∨ op = "OR") ∧
        ∃ token, ofText op = .compare token ∧ (token = op ∨ token ∈ renamedTokens)) := by
  fun_cases ofText op with
  | case1 => exact Or.inr (Or.inr ⟨by decide, "=", rfl, Or.inr (by decide)⟩)
  | case2 => exact Or.inr (Or.inr ⟨by decide, "<>", rfl, Or.inr (by decide)⟩)
  | case3 => exact Or.inr (Or.inr ⟨by decide, "LIKE", rfl, Or.inr (by decide)⟩)
  | case4 => exact Or.inr (Or.inr ⟨by decide, "NOT LIKE", rfl, Or.inr (by decide)⟩)
  | case5 => exact Or.inl ⟨rfl, rfl⟩
  | case6 => exact Or.inr (Or.inl ⟨rfl, rfl⟩)
  | case7 _ _ _ _ _ hand hor =>
    exact Or.inr (Or.inr ⟨not_or.mpr ⟨hand, hor⟩, op, rfl, Or.inl rfl⟩)

theorem eq_of_ofText_and {op : String} (h : ofText op = .and) : op = "AND" := by
  rcases ofText_cases op with ⟨ho, _⟩ | ⟨_, hn⟩ | ⟨_, token, hn, _⟩
  · exact ho
  · cases hn.symm.trans h
  · cases hn.symm.trans h

theorem eq_of_ofText_or {op : String} (h : ofText op = .or) : op = "OR" := by
  rcases ofText_cases op with ⟨_, hn⟩ | ⟨ho, _⟩ | ⟨_, token, hn, _⟩
  · cases hn.symm.trans h
  · exact ho
  · cases hn.symm.trans h

theorem of_ofText_compare {op token : String} (h : ofText op = .compare token) :
    ¬(op = "AND" ∨ op = "OR") ∧ (token = op ∨ token ∈ renamedTokens) := by
  rcases ofText_cases op with ⟨_, hn⟩ | ⟨_, hn⟩ | ⟨ho, found, hn, hf⟩
  · cases hn.symm.trans h
  · cases hn.symm.trans h
  · cases hn.symm.trans h
    exact ⟨ho, hf⟩

end FilterOperator

/-- The entries that filters become, with a property of their tokens. -/
inductive Entry.FromFilter (P : String → Prop) : Entry → Prop
  | compare {left right : Operand} {token : String} : P token →
    FromFilter P (.compare .and false left token right)
  | joined {connector : Connector} {left right : Entry} : FromFilter P left → FromFilter P right →
    FromFilter P (.joined connector left right)
  | negated {content : Entry} : FromFilter P content → FromFilter P (.group .and true [content])

namespace Expr

/-- The operators of the comparisons of a filter, from left to right. -/
def comparisonOperators : Expr → List String
  | .binary op left right =>
    if op = "AND" ∨ op = "OR" then left.comparisonOperators ++ right.comparisonOperators else [op]
  | .unary _ argument => argument.comparisonOperators
  | _ => []

/-- A property of the operators of a filter is one of the tokens of its entry. -/
theorem entry_fromFilter {P : String → Prop} (hP : ∀ token ∈ FilterOperator.renamedTokens, P token)
    {e : Expr} {found : Entry} (ho : ∀ op ∈ e.comparisonOperators, P op)
    (h : e.entry = .ok found) : found.FromFilter P := by
  fun_induction Expr.entry e generalizing found with
  | case1 op left right hop ihl ihr =>
    obtain rfl := FilterOperator.eq_of_ofText_and hop
    obtain ⟨l, r, hl, hr, rfl⟩ := both_eq_ok_iff.mp h
    simp only [comparisonOperators, true_or, ↓reduceIte, List.mem_append] at ho
    exact .joined (ihl (fun op hm => ho op (Or.inl hm)) hl) (ihr (fun op hm => ho op (Or.inr hm)) hr)
  | case2 op left right hop ihl ihr =>
    obtain rfl := FilterOperator.eq_of_ofText_or hop
    obtain ⟨l, r, hl, hr, rfl⟩ := both_eq_ok_iff.mp h
    simp only [comparisonOperators, or_true, ↓reduceIte, List.mem_append] at ho
    exact .joined (ihl (fun op hm => ho op (Or.inl hm)) hl) (ihr (fun op hm => ho op (Or.inr hm)) hr)
  | case3 op left right token hop =>
    obtain ⟨l, r, hl, hr, rfl⟩ := both_eq_ok_iff.mp h
    obtain ⟨hn, ht⟩ := FilterOperator.of_ofText_compare hop
    simp only [comparisonOperators, hn, ↓reduceIte, List.mem_singleton, forall_eq] at ho
    apply Entry.FromFilter.compare
    rcases ht with rfl | ht
    · exact ho
    · exact hP token ht
  | case4 argument ih =>
    obtain ⟨content, hc, rfl⟩ := map_eq_ok_iff.mp h
    exact .negated (ih ho hc)
  | case5 op argument hop => cases h
  | case6 => cases h

end Expr

end Offload
