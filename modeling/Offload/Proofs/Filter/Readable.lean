import Offload.Proofs.Filter.Shape
import Offload.Proofs.Sql.Condition

namespace Offload

/-- A token that holds no character that an operand can begin with. -/
def Unmarked (token : String) : Prop :=
  ∀ c ∈ token.toList, Operand.isUnmarked c = true

namespace Operand

theorem takeWhile_token {token : String} (ht : Unmarked token) (o : Operand) (more : List Char) :
    (token.toList ++ ' ' :: o.write more).takeWhile isUnmarked = token.toList ++ [' '] := by
  obtain ⟨rest, hw⟩ := o.write_mark more
  rw [List.takeWhile_append_of_pos ht, List.takeWhile_cons_of_pos rfl, hw,
    List.takeWhile_cons_of_neg (by simp [isUnmarked_mark])]

/-- A token without marks ends where the operand after it begins. -/
theorem token_split {token token' : String} (ht : Unmarked token) (ht' : Unmarked token')
    {a b : Operand} {more more' : List Char}
    (h : token.toList ++ ' ' :: a.write more = token'.toList ++ ' ' :: b.write more') :
    token = token' ∧ a.write more = b.write more' := by
  have hcut := congrArg (List.takeWhile isUnmarked) h
  rw [takeWhile_token ht, takeWhile_token ht'] at hcut
  obtain rfl := String.toList_inj.mp (List.append_cancel_right hcut)
  exact ⟨rfl, (List.cons.inj (List.append_cancel_left h)).2⟩

/-- A text that cannot follow the parenthesis that opens a list of operands. -/
def NotListed (text : List Char) : Prop :=
  (∀ rest, text ≠ ')' :: rest) ∧ ∀ item rest more, write item (writeItems rest more) ≠ text

theorem write_ne_open {text : List Char} (ht : NotListed text) (o : Operand) (more : List Char) :
    o.write more ≠ '(' :: text := by
  intro h
  cases o with
  | column name => simp [write, writeIdentifier] at h
  | array items =>
    cases items with
    | nil =>
      simp only [write, List.cons.injEq, true_and] at h
      exact ht.1 more h.symm
    | cons item rest =>
      simp only [write, List.cons.injEq, true_and] at h
      exact ht.2 item rest more h
  | _ => simp [write] at h

end Operand

namespace Connector

theorem noQuote_sql (c : Connector) (more : List Char) : NoQuote (c.sql ++ more) :=
  noQuote_cons (by decide) _

theorem sql_split {c c' : Connector} {more more' : List Char}
    (h : c.sql ++ '(' :: more = c'.sql ++ '(' :: more') : c = c' ∧ more = more' := by
  cases c <;> cases c' <;> simp_all [sql, name]

end Connector

namespace Entry

variable {P : String → Prop}

theorem write_compare (left : Operand) (token : String) (right : Operand) (more : List Char) :
    (compare .and false left token right).write more =
      left.write (' ' :: (token.toList ++ ' ' :: right.write more)) := by
  simp [write, negation]

theorem write_joined (connector : Connector) (left right : Entry) (more : List Char) :
    (joined connector left right).write more =
      '(' :: left.write (connector.sql ++ '(' :: right.write (')' :: ')' :: more)) := by
  simp [joined, write, writeJoined, negation, Entry.connector]

theorem write_negated (content : Entry) (more : List Char) :
    (group .and true [content]).write more =
      "not (".toList ++ content.write (')' :: more) := by
  simp [write, writeJoined, negation]

/-- What follows a parenthesis tells whether it opens a group or a list. -/
theorem FromFilter.notListed {e : Entry} (he : e.FromFilter P) (more : List Char) :
    Operand.NotListed (e.write more) := by
  induction he generalizing more with
  | compare =>
    rw [write_compare]
    refine ⟨Operand.write_ne_cons rfl _ _, fun item rest tail h => ?_⟩
    -- An item of a list ends with a comma or a parenthesis, the left side of a comparison with a blank.
    have hr := (Operand.write_split _ _ (Operand.noQuote_writeItems rest tail)
      (noQuote_cons (by decide) _) h).2
    obtain ⟨c, _, hw, hc⟩ := Operand.writeItems_head rest tail
    rw [hw] at hr
    rcases hc with rfl | rfl <;> cases (List.cons.inj hr).1
  | joined _ _ ihl =>
    rw [write_joined]
    refine ⟨fun rest h => ?_, fun item rest tail h => ?_⟩
    · cases (List.cons.inj h).1
    · exact Operand.write_ne_open (ihl _) _ _ h
  | negated =>
    rw [write_negated]
    refine ⟨fun rest h => ?_, fun item rest tail => Operand.write_ne_cons rfl _ _ _⟩
    cases (List.cons.inj h).1

/-- The text of the entry of a filter determines its form and where the entry ends. -/
theorem FromFilter.write_split {a b : Entry} (ha : a.FromFilter Unmarked)
    (hb : b.FromFilter Unmarked) {more more' : List Char} (hm : NoQuote more)
    (hm' : NoQuote more') (h : a.write more = b.write more') :
    a.form = b.form ∧ more = more' := by
  induction ha generalizing b more more' with
  | compare ht =>
    rw [write_compare] at h
    cases hb with
    | compare ht' =>
      rw [write_compare] at h
      obtain ⟨hl, hafter⟩ := Operand.write_split _ _ (noQuote_cons (by decide) _)
        (noQuote_cons (by decide) _) h
      obtain ⟨rfl, hright⟩ := Operand.token_split ht ht' (List.cons.inj hafter).2
      obtain ⟨hr, hmore⟩ := Operand.write_split _ _ hm hm' hright
      exact ⟨by rw [form, form, hl, hr], hmore⟩
    | joined hl' hr' =>
      -- Both texts can begin with a parenthesis, of a list or of a group.
      rw [write_joined] at h
      exact (Operand.write_ne_open (hl'.notListed _) _ _ h).elim
    | negated =>
      rw [write_negated] at h
      exact (Operand.write_ne_cons rfl _ _ _ h).elim
  | joined hl hr ihl ihr =>
    rw [write_joined] at h
    cases hb with
    | compare =>
      rw [write_compare] at h
      exact (Operand.write_ne_open (hl.notListed _) _ _ h.symm).elim
    | joined hl' hr' =>
      rw [write_joined] at h
      obtain ⟨hl, hafter⟩ := ihl hl' (Connector.noQuote_sql _ _) (Connector.noQuote_sql _ _)
        (List.cons.inj h).2
      obtain ⟨rfl, hright⟩ := Connector.sql_split hafter
      obtain ⟨hr, hclose⟩ := ihr hr' (noQuote_cons (by decide) _) (noQuote_cons (by decide) _) hright
      refine ⟨by simp only [Entry.joined, form, membersForm, hl, hr], ?_⟩
      exact (List.cons.inj (List.cons.inj hclose).2).2
    | negated =>
      rw [write_negated] at h
      cases (List.cons.inj h).1
  | negated hc ih =>
    rw [write_negated] at h
    cases hb with
    | compare =>
      rw [write_compare] at h
      exact (Operand.write_ne_cons rfl _ _ _ h.symm).elim
    | joined =>
      rw [write_joined] at h
      cases (List.cons.inj h).1
    | negated hc' =>
      rw [write_negated] at h
      obtain ⟨hc, hclose⟩ := ih hc' (noQuote_cons (by decide) _) (noQuote_cons (by decide) _)
        (List.append_cancel_left h)
      exact ⟨by simp only [form, membersForm, hc], (List.cons.inj hclose).2⟩

end Entry

namespace Expr

theorem entry_unmarked {e : Expr} {found : Entry} (ho : ∀ op ∈ e.comparisonOperators, Unmarked op)
    (h : e.entry = .ok found) : found.FromFilter Unmarked :=
  entry_fromFilter (by simp [FilterOperator.renamedTokens, Unmarked, Operand.isUnmarked]) ho h

/-- The SQL text of a filter is unambiguous: two filters with the same text and the same bound values
are the same condition. This is so for equality as well as for the equality that does not tell the two
zeros apart. -/
theorem eq_of_same_sql {e e' : Expr} {c c' : Condition} (hc : e.compile {} = (c, none))
    (hc' : e'.compile {} = (c', none)) (ho : ∀ op ∈ e.comparisonOperators, Unmarked op)
    (ho' : ∀ op ∈ e'.comparisonOperators, Unmarked op) (hsql : c.sql = c'.sql) :
    (c.bindings = c'.bindings → c = c') ∧
      (Operand.sameItems c.bindings c'.bindings = true → c.same c' = true) := by
  obtain ⟨found, he, rfl⟩ := compile_eq_ok_iff.mp hc
  obtain ⟨found', he', rfl⟩ := compile_eq_ok_iff.mp hc'
  have htext : found.write [] = found'.write [] := String.ofList_injective hsql
  have hform := ((entry_unmarked ho he).write_split (entry_unmarked ho' he') noQuote_nil noQuote_nil
    htext).1
  have hcondition : (Condition.push {} found).form = (Condition.push {} found').form :=
    congrArg (fun entry => Condition.mk [entry]) hform
  exact ⟨Condition.eq_of_form hcondition, Condition.same_of_form hcondition⟩

/-- Two operators for equality, in a text that has quotes, a list and groups. -/
theorem eq_of_same_sql_equality :
    let filter (op : String) : Expr :=
      .binary "OR" (.unary "NOT" (.binary op (.field "na\"me") (.string "x*")))
        (.binary "in" (.field "id") (.array [.null, .field "x"]))
    ((filter "==").compile ({} : Condition)).1.sql =
        "(not (\"na\"\"me\" = ?) or (\"id\" in (?, \"x\")))" ∧
      ((filter "==").compile ({} : Condition)).1 = ((filter "=").compile {}).1 := by
  intro filter
  have hc : (filter "==").compile ({} : Condition) = (((filter "==").compile {}).1, none) :=
    Prod.ext rfl (by decide)
  have hc' : (filter "=").compile ({} : Condition) = (((filter "=").compile {}).1, none) :=
    Prod.ext rfl (by decide)
  have ho : ∀ op ∈ (filter "==").comparisonOperators, Unmarked op := by
    simp [filter, comparisonOperators, Unmarked, Operand.isUnmarked]
  have ho' : ∀ op ∈ (filter "=").comparisonOperators, Unmarked op := by
    simp [filter, comparisonOperators, Unmarked, Operand.isUnmarked]
  exact ⟨by decide, (eq_of_same_sql hc hc' ho ho' (by decide)).1 rfl⟩

end Expr

end Offload
