import Mathlib.Data.List.Forall2
import Offload.Proofs.Sql.Identifier
import Offload.Sql.Operand

namespace Offload

namespace Operand

mutual

/-- What the text of an operand shows: every bound value is replaced by null. -/
def form : Operand → Operand
  | .column name => .column name
  | .array items => .array (itemsForm items)
  | _ => .null

def itemsForm : List Operand → List Operand
  | [] => []
  | item :: rest => item.form :: itemsForm rest

end

/-- The character that the text of an operand begins with. -/
def mark : Operand → Char
  | .column _ => '"'
  | .array _ => '('
  | _ => '?'

/-- Can no operand begin with this character? -/
def isUnmarked (c : Char) : Bool :=
  c ≠ '"' && c ≠ '?' && c ≠ '('

theorem isUnmarked_mark (o : Operand) : isUnmarked o.mark = false := by
  cases o <;> rfl

theorem write_value {o : Operand} (ho : o.mark = '?') (more : List Char) :
    o.write more = '?' :: more := by
  cases o <;> simp_all [mark, write]

theorem form_value {o : Operand} (ho : o.mark = '?') : o.form = .null := by
  cases o <;> simp_all [mark, form]

theorem bindings_value {o : Operand} (ho : o.mark = '?') : o.bindings = [o] := by
  cases o <;> simp_all [mark, bindings]

theorem mark_form (o : Operand) : o.form.mark = o.mark := by
  cases o <;> simp [form, mark]

theorem mark_eq_of_form {a b : Operand} (h : a.form = b.form) : a.mark = b.mark := by
  rw [← mark_form a, h, mark_form b]

theorem write_mark (o : Operand) (more : List Char) :
    ∃ rest, o.write more = o.mark :: rest := by
  cases o with
  | column name => exact ⟨_, rfl⟩
  | array items => cases items <;> exact ⟨_, by rw [write]; rfl⟩
  | _ => exact ⟨more, write_value rfl more⟩

theorem mark_eq_of_write {a b : Operand} {more more' : List Char}
    (h : a.write more = b.write more') : a.mark = b.mark := by
  obtain ⟨rest, ha⟩ := a.write_mark more
  obtain ⟨rest', hb⟩ := b.write_mark more'
  rw [ha, hb] at h
  exact (List.cons.inj h).1

theorem write_ne_cons {c : Char} (hc : isUnmarked c = true) (o : Operand) (more rest : List Char) :
    o.write more ≠ c :: rest := by
  intro h
  obtain ⟨tail, hw⟩ := o.write_mark more
  rw [hw] at h
  rw [← (List.cons.inj h).1, isUnmarked_mark] at hc
  cases hc

/-- After an item comes a comma or the parenthesis that closes the list. -/
theorem writeItems_head (items : List Operand) (more : List Char) :
    ∃ c rest, writeItems items more = c :: rest ∧ (c = ')' ∨ c = ',') := by
  cases items with
  | nil => exact ⟨')', more, by rw [writeItems], Or.inl rfl⟩
  | cons item rest => exact ⟨',', _, by rw [writeItems], Or.inr rfl⟩

theorem noQuote_writeItems (items : List Operand) (more : List Char) :
    NoQuote (writeItems items more) := by
  obtain ⟨c, rest, hw, hc⟩ := writeItems_head items more
  rw [hw]
  apply noQuote_cons
  rcases hc with rfl | rfl <;> decide

theorem write_split_value {a b : Operand} {more more' : List Char} (ha : a.mark = '?')
    (h : a.write more = b.write more') : a.form = b.form ∧ more = more' := by
  have hb : b.mark = '?' := (mark_eq_of_write h).symm.trans ha
  rw [write_value ha, write_value hb] at h
  rw [form_value ha, form_value hb]
  exact ⟨rfl, (List.cons.inj h).2⟩

theorem writeItems_eq_of_array {as bs : List Operand} {more more' : List Char}
    (h : (array as).write more = (array bs).write more') :
    writeItems as more = writeItems bs more' := by
  cases as with
  | nil =>
    cases bs with
    | nil => simpa [write, writeItems] using h
    | cons b bs =>
      simp only [write, List.cons.injEq, true_and] at h
      exact (write_ne_cons rfl _ _ _ h.symm).elim
  | cons a as =>
    cases bs with
    | nil =>
      simp only [write, List.cons.injEq, true_and] at h
      exact (write_ne_cons rfl _ _ _ h).elim
    | cons b bs => simpa [write, writeItems] using h

mutual

/-- The text of an operand determines its form and where the operand ends. -/
theorem write_split (a b : Operand) {more more' : List Char} (hm : NoQuote more)
    (hm' : NoQuote more') (h : a.write more = b.write more') : a.form = b.form ∧ more = more' := by
  -- The first character tells a column, a list and a placeholder apart.
  have hmark := mark_eq_of_write h
  cases a with
  | column name =>
    cases b with
    | column name' =>
      simp only [write] at h
      obtain ⟨hname, hmore⟩ := writeIdentifier_split hm hm' h
      exact ⟨by rw [String.toList_inj.mp hname], hmore⟩
    | _ => simp [mark] at hmark
  | array items =>
    cases b with
    | array items' =>
      obtain ⟨hitems, hmore⟩ := writeItems_split items items' hm hm' (writeItems_eq_of_array h)
      exact ⟨by rw [form, form, hitems], hmore⟩
    | _ => simp [mark] at hmark
  | _ => exact write_split_value rfl h

theorem writeItems_split (as bs : List Operand) {more more' : List Char} (hm : NoQuote more)
    (hm' : NoQuote more') (h : writeItems as more = writeItems bs more') :
    itemsForm as = itemsForm bs ∧ more = more' := by
  match as, bs with
  | [], [] =>
    simp only [writeItems, List.cons.injEq, true_and] at h
    exact ⟨rfl, h⟩
  | [], b :: bs => simp [writeItems] at h
  | a :: as, [] => simp [writeItems] at h
  | a :: as, b :: bs =>
    simp only [writeItems, List.cons.injEq, true_and] at h
    obtain ⟨hitem, hrest⟩ := write_split a b (noQuote_writeItems _ _) (noQuote_writeItems _ _) h
    obtain ⟨hitems, hmore⟩ := writeItems_split as bs hm hm' hrest
    exact ⟨by rw [itemsForm, itemsForm, hitem, hitems], hmore⟩

end

/-- A relation that holds of two operands if it holds of their parts. -/
structure IsCongruence (R : Operand → Operand → Prop) : Prop where
  column : ∀ name, R (.column name) (.column name)
  array : ∀ {as bs}, List.Forall₂ R as bs → R (.array as) (.array bs)

variable {R : Operand → Operand → Prop}

mutual

/-- The form and the bound values determine an operand and the bound values that are left over. -/
theorem IsCongruence.of_form (hR : IsCongruence R) (a b : Operand) {more more' : List Operand}
    (hf : a.form = b.form) (h : List.Forall₂ R (a.bindings ++ more) (b.bindings ++ more')) :
    R a b ∧ List.Forall₂ R more more' := by
  have hmark := mark_eq_of_form hf
  cases a with
  | column name =>
    cases b with
    | column name' =>
      simp only [form, Operand.column.injEq] at hf
      subst hf
      exact ⟨hR.column name, by simpa [bindings] using h⟩
    | _ => simp [mark] at hmark
  | array items =>
    cases b with
    | array items' =>
      simp only [form, Operand.array.injEq] at hf
      simp only [bindings] at h
      obtain ⟨hi, h⟩ := hR.of_itemsForm items items' hf h
      exact ⟨hR.array hi, h⟩
    | _ => simp [mark] at hmark
  | _ =>
    rw [bindings_value rfl, bindings_value hmark.symm] at h
    exact List.forall₂_cons.mp h

theorem IsCongruence.of_itemsForm (hR : IsCongruence R) (as bs : List Operand)
    {more more' : List Operand} (hf : itemsForm as = itemsForm bs)
    (h : List.Forall₂ R (itemsBindings as ++ more) (itemsBindings bs ++ more')) :
    List.Forall₂ R as bs ∧ List.Forall₂ R more more' := by
  match as, bs with
  | [], [] => exact ⟨.nil, by simpa [itemsBindings] using h⟩
  | [], b :: bs => simp [itemsForm] at hf
  | a :: as, [] => simp [itemsForm] at hf
  | a :: as, b :: bs =>
    simp only [itemsForm, List.cons.injEq] at hf
    simp only [itemsBindings, List.append_assoc] at h
    obtain ⟨ha, h⟩ := hR.of_form a b hf.1 h
    obtain ⟨hr, h⟩ := hR.of_itemsForm as bs hf.2 h
    exact ⟨.cons ha hr, h⟩

end

theorem isCongruence_eq : IsCongruence (· = ·) where
  column _ := rfl
  array h := by
    rw [List.forall₂_eq_eq_eq] at h
    rw [h]

theorem sameItems_iff {as bs : List Operand} :
    sameItems as bs = true ↔ List.Forall₂ (fun a b => a.same b = true) as bs := by
  induction as generalizing bs with
  | nil => cases bs <;> simp [sameItems]
  | cons a as ih => cases bs <;> simp [sameItems, ih]

theorem isCongruence_same : IsCongruence fun a b => a.same b = true where
  column name := by simp [same]
  array h := by rw [same]; exact sameItems_iff.mpr h

end Operand

end Offload
