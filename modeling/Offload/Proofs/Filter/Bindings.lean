import Offload.Proofs.Filter.Readable

namespace Offload

namespace Entry

theorem bindings_joined (connector : Connector) (left right : Entry) :
    (joined connector left right).bindings = left.bindings ++ right.bindings := by
  simp [joined, bindings, membersBindings]

theorem bindings_negated (content : Entry) :
    (group .and true [content]).bindings = content.bindings := by
  simp [bindings, membersBindings]

end Entry

namespace Expr

/-- The operators whose right side, if it is a string, is a glob. -/
def globOperators : List String :=
  ["=~", "!~", "LIKE", "NOT LIKE"]

mutual

/-- The values of the scalar literals of an expression, from left to right. A glob counts as the pattern
that it stands for. -/
def literals : Expr → List Operand
  | .binary op left (.string value) =>
    left.literals ++ [.string (if op ∈ globOperators then likeOfGlob value else value)]
  | .binary _ left right => left.literals ++ right.literals
  | .unary _ argument => argument.literals
  | .field _ => []
  | .string value => [.string value]
  | .moment value => [.timestamp value]
  | .null => [.null]
  | .boolean value => [.boolean value]
  | .number value => [.number value]
  | .array items => itemsLiterals items

def itemsLiterals : List Expr → List Operand
  | [] => []
  | item :: rest => item.literals ++ itemsLiterals rest

end

theorem literals_binary {op : String} (ho : op ∉ globOperators) (left right : Expr) :
    (binary op left right).literals = left.literals ++ right.literals := by
  cases right <;> simp [literals, ho]

mutual

theorem bindings_operand (e : Expr) {o : Operand} (h : e.operand = .ok o) :
    o.bindings = e.literals := by
  cases e with
  | array items =>
    simp only [operand] at h
    split at h
    next values hv =>
      cases h
      rw [Operand.bindings, literals, bindings_operands items hv]
    next => cases h
  | binary op left right => simp [operand] at h
  | unary op argument => simp [operand] at h
  | _ =>
    simp only [operand, Except.ok.injEq] at h
    subst h
    simp [Operand.bindings, literals]

theorem bindings_operands (items : List Expr) {values : List Operand}
    (h : operands items = .ok values) : Operand.itemsBindings values = itemsLiterals items := by
  cases items with
  | nil =>
    simp only [operands, Except.ok.injEq] at h
    subst h
    simp [Operand.itemsBindings, itemsLiterals]
  | cons item rest =>
    simp only [operands] at h
    split at h
    next => cases h
    next value hi =>
      split at h
      next => cases h
      next values hr =>
        cases h
        rw [Operand.itemsBindings, itemsLiterals, bindings_operand item hi, bindings_operands rest hr]

end

theorem isPattern_iff {op token : String} (h : FilterOperator.ofText op = .compare token) :
    (FilterOperator.compare token).isPattern = true ↔ op ∈ globOperators := by
  rw [← h]
  fun_cases FilterOperator.ofText op with
  | case7 _ _ _ hlike hnot =>
    have hlike : op ≠ "=~" := hlike
    have hnot : op ≠ "!~" := hnot
    simp [FilterOperator.isPattern, globOperators, hlike, hnot]
  | _ => decide

/-- Only a string that stands directly on the right side is a glob. -/
theorem bindings_rightOperand {op token : String} (hop : FilterOperator.ofText op = .compare token)
    (left right : Expr) {o : Operand} (h : right.rightOperand (.compare token) = .ok o) :
    left.literals ++ o.bindings = (binary op left right).literals := by
  cases right with
  | string value =>
    simp only [rightOperand, Except.ok.injEq] at h
    subst h
    simp only [Operand.bindings, literals, isPattern_iff hop]
  | _ => simp [bindings_operand _ h, literals]

theorem bindings_entry {e : Expr} {found : Entry} (h : e.entry = .ok found) :
    found.bindings = e.literals := by
  fun_induction Expr.entry e generalizing found with
  | case1 op left right hop ihl ihr =>
    obtain rfl := FilterOperator.eq_of_ofText_and hop
    obtain ⟨l, r, hl, hr, rfl⟩ := both_eq_ok_iff.mp h
    rw [literals_binary (by decide), ← ihl hl, ← ihr hr, Entry.bindings_joined]
  | case2 op left right hop ihl ihr =>
    obtain rfl := FilterOperator.eq_of_ofText_or hop
    obtain ⟨l, r, hl, hr, rfl⟩ := both_eq_ok_iff.mp h
    rw [literals_binary (by decide), ← ihl hl, ← ihr hr, Entry.bindings_joined]
  | case3 op left right token hop =>
    obtain ⟨l, r, hl, hr, rfl⟩ := both_eq_ok_iff.mp h
    rw [Entry.bindings, bindings_operand left hl, bindings_rightOperand hop left right hr]
  | case4 argument ih =>
    obtain ⟨content, hc, rfl⟩ := map_eq_ok_iff.mp h
    rw [literals, ← ih hc, Entry.bindings_negated]
  | case5 op argument hop => cases h
  | case6 => cases h

end Expr

/-- The number of question marks in a text that are not quoted. A quote that is written twice ends an
identifier and goes on with it at once. -/
def questionMarks (quoted : Bool) : List Char → Nat
  | [] => 0
  | '"' :: rest => questionMarks (!quoted) rest
  | '?' :: rest => questionMarks quoted rest + if quoted then 0 else 1
  | _ :: rest => questionMarks quoted rest

/-- The number of placeholders in a text: the question marks outside of quoted identifiers. -/
def placeholders (text : List Char) : Nat :=
  questionMarks false text

/-- A token that can be taken neither for a placeholder nor for part of an identifier. -/
def Markless (token : String) : Prop :=
  '?' ∉ token.toList ∧ '"' ∉ token.toList

theorem placeholders_cons {c : Char} (hm : c ≠ '?') (hq : c ≠ '"') (more : List Char) :
    placeholders (c :: more) = placeholders more := by
  unfold placeholders
  rw [questionMarks]
  · exact hq
  · exact hm

theorem placeholders_append {text : List Char} (hm : '?' ∉ text) (hq : '"' ∉ text)
    (more : List Char) : placeholders (text ++ more) = placeholders more := by
  induction text with
  | nil => rfl
  | cons c rest ih =>
    simp only [List.mem_cons, not_or] at hm hq
    rw [List.cons_append, placeholders_cons (Ne.symm hm.1) (Ne.symm hq.1), ih hm.2 hq.2]

theorem questionMarks_writeDoubled (name more : List Char) :
    questionMarks true (writeDoubled name ('"' :: more)) = placeholders more := by
  induction name with
  | nil => rfl
  | cons c rest ih =>
    by_cases hc : c = '"'
    · simpa [writeDoubled, questionMarks, hc] using ih
    · rw [writeDoubled, if_neg hc]
      by_cases hm : c = '?'
      · simpa [questionMarks, hm] using ih
      · rw [questionMarks, ih]
        · exact hc
        · exact hm

/-- Nothing inside of an identifier is a placeholder. -/
theorem placeholders_writeIdentifier (name more : List Char) :
    placeholders (writeIdentifier name more) = placeholders more :=
  questionMarks_writeDoubled name more

namespace Operand

mutual

theorem placeholders_write (o : Operand) (more : List Char) :
    placeholders (o.write more) = o.bindings.length + placeholders more := by
  cases o with
  | column name => simp [write, bindings, placeholders_writeIdentifier]
  | array items =>
    cases items with
    | nil => simp [write, bindings, itemsBindings, placeholders_cons]
    | cons item rest =>
      simp (disch := decide) only [write, placeholders_cons]
      rw [placeholders_write item, placeholders_writeItems rest, bindings, itemsBindings,
        List.length_append, Nat.add_assoc]
  | _ => rw [write_value rfl, bindings_value rfl, List.length_singleton, Nat.add_comm]; rfl

theorem placeholders_writeItems (items : List Operand) (more : List Char) :
    placeholders (writeItems items more) = (itemsBindings items).length + placeholders more := by
  cases items with
  | nil => simp [writeItems, itemsBindings, placeholders_cons]
  | cons item rest =>
    simp (disch := decide) only [writeItems, placeholders_cons]
    rw [placeholders_write item, placeholders_writeItems rest, itemsBindings, List.length_append,
      Nat.add_assoc]

end

end Operand

namespace Entry

theorem FromFilter.placeholders_write {e : Entry} (he : e.FromFilter Markless) (more : List Char) :
    placeholders (e.write more) = e.bindings.length + placeholders more := by
  -- Tokens, connectors and parentheses have no marks, so that only operands count.
  induction he generalizing more with
  | compare ht =>
    simp (disch := decide) only [write_compare, Operand.placeholders_write, placeholders_cons,
      placeholders_append ht.1 ht.2, bindings, List.length_append, Nat.add_assoc]
  | @joined connector left right _ _ ihl ihr =>
    have hsql : '?' ∉ connector.sql ∧ '"' ∉ connector.sql := by cases connector <;> decide
    simp (disch := decide) only [write_joined, ihl, ihr, placeholders_cons,
      placeholders_append hsql.1 hsql.2, bindings_joined, List.length_append, Nat.add_assoc]
  | negated _ ih =>
    rw [write_negated, placeholders_append (by decide) (by decide), ih, bindings_negated]
    simp (disch := decide) only [placeholders_cons]

end Entry

namespace Expr

/-- The values that a filter binds are its literals, from left to right, with globs as patterns. If no
operator of a comparison holds a question mark or a quote, its text has as many placeholders. -/
theorem compile_bindings {e : Expr} {c : Condition} (hc : e.compile {} = (c, none)) :
    c.bindings = e.literals ∧
      ((∀ op ∈ e.comparisonOperators, '?' ∉ op.toList ∧ '"' ∉ op.toList) →
        placeholders c.sql.toList = c.bindings.length) := by
  obtain ⟨found, he, rfl⟩ := compile_eq_ok_iff.mp hc
  have hb : (Condition.push {} found).bindings = found.bindings := by
    simp [Condition.bindings, Entry.membersBindings]
  rw [hb]
  refine ⟨bindings_entry he, fun ho => ?_⟩
  have hf : found.FromFilter Markless :=
    entry_fromFilter (by simp [FilterOperator.renamedTokens, Markless]) ho he
  have hsql : (Condition.push {} found).sql.toList = found.write [] := String.toList_ofList
  rw [hsql, hf.placeholders_write]
  rfl

/-- The column has a question mark and a quote in its name, and of the strings only one is a glob. -/
theorem compile_bindings_odd_names :
    let filter : Expr :=
      .binary "OR" (.unary "NOT" (.binary "=~" (.field "na?\"me") (.string "x*")))
        (.binary "in" (.string "a*") (.array [.null, .array [.string "b?", .field "y"], .boolean true]))
    let c := (filter.compile ({} : Condition)).1
    c.sql = "(not (\"na?\"\"me\" LIKE ?) or (? in (?, (?, \"y\"), ?)))" ∧
      c.bindings = [.string "x%", .string "a*", .null, .string "b?", .boolean true] ∧
      placeholders c.sql.toList = 5 := by
  intro filter c
  have hc : filter.compile ({} : Condition) = (c, none) := Prod.ext rfl (by decide)
  have ho : ∀ op ∈ filter.comparisonOperators, '?' ∉ op.toList ∧ '"' ∉ op.toList := by
    simp [filter, comparisonOperators]
  obtain ⟨hbindings, hcount⟩ := compile_bindings hc
  have hliterals : filter.literals =
      [.string "x%", .string "a*", .null, .string "b?", .boolean true] := by
    simp [filter, literals, itemsLiterals, globOperators, likeOfGlob, likeChar]
  rw [hliterals] at hbindings
  refine ⟨by decide, hbindings, ?_⟩
  rw [hcount ho, hbindings]
  rfl

end Expr

end Offload
