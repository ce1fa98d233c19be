import Offload.Filter.Meaning
import Offload.Proofs.Filter.Shape

namespace Offload

namespace Expr

/-- What a node of an expression has to be. -/
inductive Role
  | predicate
  | operand

/-- What is wrong with a node in its role, whatever its parts are. -/
def Role.fault? : Role × Expr → Option Fault
  | (.predicate, .binary ..) => none
  | (.predicate, .unary op _) => if op = "NOT" then none else some (.unsupported op)
  | (.predicate, e) => some (.notPredicate e.nodeName)
  | (.operand, .binary op left right) => some (.notOperand (Expr.binary op left right).nodeName)
  | (.operand, .unary op argument) => some (.notOperand (Expr.unary op argument).nodeName)
  | (.operand, _) => none

mutual

/-- The nodes of an expression with their roles, each before its parts and the parts from left to right.
The parts of a node that is wrong in its role are left out. -/
def nodes : Role → Expr → List (Role × Expr)
  | .predicate, .binary op left right =>
    (.predicate, .binary op left right) ::
      if op = "AND" ∨ op = "OR" then nodes .predicate left ++ nodes .predicate right
      else nodes .operand left ++ nodes .operand right
  | .predicate, .unary op argument =>
    (.predicate, .unary op argument) :: if op = "NOT" then nodes .predicate argument else []
  | .operand, .array items => (.operand, .array items) :: itemsNodes items
  | role, e => [(role, e)]

def itemsNodes : List Expr → List (Role × Expr)
  | [] => []
  | item :: rest => nodes .operand item ++ itemsNodes rest

end

mutual

/-- The faults of an expression where an operand has to be, from left to right. -/
def operandFaults : Expr → List Fault
  | .binary op l r => [.notOperand (Expr.binary op l r).nodeName]
  | .unary op e => [.notOperand (Expr.unary op e).nodeName]
  | .array items => itemsFaults items
  | _ => []

def itemsFaults : List Expr → List Fault
  | [] => []
  | item :: rest => item.operandFaults ++ itemsFaults rest

end

/-- The faults of an expression where a predicate has to be, from left to right. The argument of an
operator that is not supported is not looked at. -/
def faults : Expr → List Fault
  | .binary op left right =>
    if op = "AND" ∨ op = "OR" then left.faults ++ right.faults
    else left.operandFaults ++ right.operandFaults
  | .unary op argument => if op = "NOT" then argument.faults else [.unsupported op]
  | e => [.notPredicate e.nodeName]

mutual

theorem operandFaults_eq (e : Expr) :
    e.operandFaults = (e.nodes .operand).filterMap Role.fault? := by
  cases e with
  | array items => rw [operandFaults, nodes, List.filterMap_cons_none rfl, itemsFaults_eq items]
  | _ => simp [operandFaults, nodes, Role.fault?]

theorem itemsFaults_eq (items : List Expr) :
    itemsFaults items = (itemsNodes items).filterMap Role.fault? := by
  cases items with
  | nil => simp [itemsFaults, itemsNodes]
  | cons item rest =>
    simp [itemsFaults, itemsNodes, operandFaults_eq item, itemsFaults_eq rest]

end

theorem faults_eq (e : Expr) : e.faults = (e.nodes .predicate).filterMap Role.fault? := by
  fun_induction faults e with
  | case1 op left right ho ihl ihr =>
    rw [nodes, List.filterMap_cons_none rfl, if_pos ho, List.filterMap_append, ihl, ihr]
  | case2 op left right ho =>
    rw [nodes, List.filterMap_cons_none rfl, if_neg ho, List.filterMap_append, operandFaults_eq,
      operandFaults_eq]
  | case3 argument ih => simp [nodes, Role.fault?, ih]
  | case4 op argument ho => simp [nodes, Role.fault?, ho]
  | case5 e hb hu =>
    cases e with
    | binary op left right => exact (hb op left right rfl).elim
    | unary op argument => exact (hu op argument rfl).elim
    | _ => simp [nodes, Role.fault?]

mutual

theorem refusal?_operand (e : Expr) : refusal? e.operand = e.operandFaults.head? := by
  cases e with
  | array items =>
    simp only [operand, operandFaults, ← refusal?_operands items]
    cases operands items <;> rfl
  | _ => simp [operand, operandFaults, refusal?]

theorem refusal?_operands (items : List Expr) :
    refusal? (operands items) = (itemsFaults items).head? := by
  cases items with
  | nil => simp [operands, itemsFaults, refusal?]
  | cons item rest =>
    simp only [operands, itemsFaults, List.head?_append, ← refusal?_operand item,
      ← refusal?_operands rest]
    cases item.operand with
    | error fault => rfl
    | ok value => cases operands rest <;> rfl

end

theorem refusal?_rightOperand (op : FilterOperator) (e : Expr) :
    refusal? (e.rightOperand op) = e.operandFaults.head? := by
  cases e with
  | string value => simp [rightOperand, operandFaults, refusal?]
  | _ => exact refusal?_operand _

/-- Compiling stops at the first fault. -/
theorem refusal?_entry (e : Expr) : refusal? e.entry = e.faults.head? := by
  fun_induction Expr.entry e with
  | case1 op left right hop ihl ihr =>
    obtain rfl := FilterOperator.eq_of_ofText_and hop
    rw [refusal?_both, ihl, ihr]
    simp [faults]
  | case2 op left right hop ihl ihr =>
    obtain rfl := FilterOperator.eq_of_ofText_or hop
    rw [refusal?_both, ihl, ihr]
    simp [faults]
  | case3 op left right token hop =>
    have ho := (FilterOperator.of_ofText_compare hop).1
    rw [refusal?_both, refusal?_operand, refusal?_rightOperand]
    simp [faults, ho]
  | case4 argument ih => simp [faults, refusal?_map, ih]
  | case5 op argument hop => simp [faults, hop, refusal?]
  | case6 e hb hu =>
    cases e with
    | binary op left right => exact (hb op left right rfl).elim
    | unary op argument => exact (hu op argument rfl).elim
    | _ => rfl

mutual

theorem operandFaults_eq_nil_iff (e : Expr) : e.operandFaults = [] ↔ e.IsOperand := by
  cases e with
  | array items =>
    rw [operandFaults, itemsFaults_eq_nil_iff items]
    constructor
    · exact .array
    · intro h
      cases h with
      | array hitems => exact hitems
  | binary op left right => exact ⟨fun h => by simp [operandFaults] at h, fun h => nomatch h⟩
  | unary op argument => exact ⟨fun h => by simp [operandFaults] at h, fun h => nomatch h⟩
  | _ => exact ⟨fun _ => by constructor, fun _ => by simp [operandFaults]⟩

theorem itemsFaults_eq_nil_iff (items : List Expr) :
    itemsFaults items = [] ↔ ∀ item ∈ items, item.IsOperand := by
  cases items with
  | nil => simp [itemsFaults]
  | cons item rest =>
    simp [itemsFaults, operandFaults_eq_nil_iff item, itemsFaults_eq_nil_iff rest]

end

theorem faults_eq_nil_iff (e : Expr) : e.faults = [] ↔ e.IsPredicate := by
  fun_induction faults e with
  | case1 op left right ho ihl ihr =>
    rw [List.append_eq_nil_iff, ihl, ihr]
    constructor
    · rintro ⟨hl, hr⟩
      rcases ho with rfl | rfl
      · exact .and hl hr
      · exact .or hl hr
    · intro h
      cases h with
      | and hl hr => exact ⟨hl, hr⟩
      | or hl hr => exact ⟨hl, hr⟩
      | compare hand hor => exact (ho.elim hand hor).elim
  | case2 op left right ho =>
    rw [List.append_eq_nil_iff, operandFaults_eq_nil_iff, operandFaults_eq_nil_iff]
    constructor
    · rintro ⟨hl, hr⟩
      exact .compare (fun h => ho (Or.inl h)) (fun h => ho (Or.inr h)) hl hr
    · intro h
      cases h with
      | and => exact (ho (Or.inl rfl)).elim
      | or => exact (ho (Or.inr rfl)).elim
      | compare _ _ hl hr => exact ⟨hl, hr⟩
  | case3 argument ih =>
    rw [ih]
    constructor
    · exact .not
    · intro h
      cases h with
      | not ha => exact ha
  | case4 op argument ho =>
    refine ⟨fun h => (List.cons_ne_nil _ _ h).elim, fun h => ?_⟩
    cases h with
    | not => exact (ho rfl).elim
  | case5 e hb hu =>
    refine ⟨fun h => (List.cons_ne_nil _ _ h).elim, fun h => ?_⟩
    cases h with
    | not => exact (hu _ _ rfl).elim
    | _ => exact (hb _ _ _ rfl).elim

/-- The compiler accepts exactly the predicates. Otherwise it reports what is wrong with the first node
that is wrong in its role, from left to right and each node before its parts. -/
theorem compile_fault (e : Expr) (c : Condition) :
    ((e.compile c).2 = none ↔ e.IsPredicate) ∧
      (e.compile c).2 = (e.nodes .predicate).findSome? Role.fault? := by
  have hfault : (e.compile c).2 = e.faults.head? := by
    rw [compile_eq, ← refusal?_entry]
    cases e.entry <;> rfl
  rw [hfault, List.head?_eq_none_iff, faults_eq_nil_iff, faults_eq, List.head?_filterMap]
  exact ⟨Iff.rfl, rfl⟩

example (m : Moment) (n : Number) :
    [.field "a", .string "a", .moment m, .null, .boolean true, .number n, .array []].map
        (fun e : Expr => (e.compile ({} : Condition)).2) =
      ["Field", "StringLiteral", "MomentLiteral", "NullLiteral", "BooleanLiteral", "NumberLiteral",
        "ArrayLiteral"].map fun name => some (.notPredicate name) :=
  rfl

example :
    [.binary "==" (.unary "NOT" (.field "a")) .null, .binary "==" .null (.array [.binary "+" .null .null]),
        .binary "OR" (.binary "==" (.field "a") .null) (.unary "~" (.field "b"))].map
        (fun e : Expr => (e.compile ({} : Condition)).2) =
      [some (.notOperand "UnaryExpression"), some (.notOperand "BinaryExpression"),
        some (.unsupported "~")] := by
  decide

end Expr

end Offload
