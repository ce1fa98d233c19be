import Offload.Proofs.Sql.Operand
import Offload.Sql.Condition

namespace Offload

namespace Entry

mutual

/-- An entry with every bound value replaced by null. -/
def form : Entry → Entry
  | .compare connector negated left token right =>
    .compare connector negated left.form token right.form
  | .group connector negated members => .group connector negated (membersForm members)

def membersForm : List Entry → List Entry
  | [] => []
  | entry :: rest => entry.form :: membersForm rest

end

/-- A relation that holds of two entries if it holds of their parts, with a given relation of their
operands. -/
structure IsCongruence (R : Operand → Operand → Prop) (E : Entry → Entry → Prop) : Prop where
  compare : ∀ {connector negated left left' token right right'}, R left left' → R right right' →
    E (.compare connector negated left token right) (.compare connector negated left' token right')
  group : ∀ {connector negated members members'}, List.Forall₂ E members members' →
    E (.group connector negated members) (.group connector negated members')

variable {R : Operand → Operand → Prop} {E : Entry → Entry → Prop}

mutual

/-- The form and the bound values determine an entry and the bound values that are left over. -/
theorem IsCongruence.of_form (hE : IsCongruence R E) (hR : Operand.IsCongruence R) (a b : Entry)
    {more more' : List Operand} (hf : a.form = b.form)
    (h : List.Forall₂ R (a.bindings ++ more) (b.bindings ++ more')) :
    E a b ∧ List.Forall₂ R more more' := by
  match a, b with
  | .compare .., .compare .. =>
    simp only [form, Entry.compare.injEq] at hf
    obtain ⟨rfl, rfl, hleft, rfl, hright⟩ := hf
    simp only [bindings, List.append_assoc] at h
    obtain ⟨hl, h⟩ := hR.of_form _ _ hleft h
    obtain ⟨hr, h⟩ := hR.of_form _ _ hright h
    exact ⟨hE.compare hl hr, h⟩
  | .compare .., .group .. => simp [form] at hf
  | .group .., .compare .. => simp [form] at hf
  | .group _ _ members, .group _ _ members' =>
    simp only [form, Entry.group.injEq] at hf
    obtain ⟨rfl, rfl, hmembers⟩ := hf
    simp only [bindings] at h
    obtain ⟨hm, h⟩ := hE.of_membersForm hR members members' hmembers h
    exact ⟨hE.group hm, h⟩

theorem IsCongruence.of_membersForm (hE : IsCongruence R E) (hR : Operand.IsCongruence R)
    (as bs : List Entry) {more more' : List Operand} (hf : membersForm as = membersForm bs)
    (h : List.Forall₂ R (membersBindings as ++ more) (membersBindings bs ++ more')) :
    List.Forall₂ E as bs ∧ List.Forall₂ R more more' := by
  match as, bs with
  | [], [] => exact ⟨.nil, by simpa [membersBindings] using h⟩
  | [], b :: bs => simp [membersForm] at hf
  | a :: as, [] => simp [membersForm] at hf
  | a :: as, b :: bs =>
    simp only [membersForm, List.cons.injEq] at hf
    simp only [membersBindings, List.append_assoc] at h
    obtain ⟨ha, h⟩ := hE.of_form hR a b hf.1 h
    obtain ⟨hr, h⟩ := hE.of_membersForm hR as bs hf.2 h
    exact ⟨.cons ha hr, h⟩

end

theorem isCongruence_eq : IsCongruence (· = ·) (· = ·) where
  compare hl hr := by rw [hl, hr]
  group h := by
    rw [List.forall₂_eq_eq_eq] at h
    rw [h]

theorem sameMembers_iff {as bs : List Entry} :
    sameMembers as bs = true ↔ List.Forall₂ (fun a b => a.same b = true) as bs := by
  induction as generalizing bs with
  | nil => cases bs <;> simp [sameMembers]
  | cons a as ih => cases bs <;> simp [sameMembers, ih]

theorem isCongruence_same :
    IsCongruence (fun a b => a.same b = true) (fun a b => a.same b = true) where
  compare hl hr := by simp [same, hl, hr]
  group h := by simp [same, sameMembers_iff.mpr h]

end Entry

namespace Condition

def form (c : Condition) : Condition :=
  ⟨Entry.membersForm c.entries⟩

theorem related_of_form {R : Operand → Operand → Prop} {E : Entry → Entry → Prop}
    (hE : Entry.IsCongruence R E) (hR : Operand.IsCongruence R) {a b : Condition}
    (hf : a.form = b.form) (h : List.Forall₂ R a.bindings b.bindings) :
    List.Forall₂ E a.entries b.entries := by
  have hb : List.Forall₂ R (Entry.membersBindings a.entries ++ [])
      (Entry.membersBindings b.entries ++ []) := by
    simpa [bindings] using h
  exact (hE.of_membersForm hR _ _ (Condition.mk.inj hf) hb).1

theorem eq_of_form {a b : Condition} (hf : a.form = b.form) (h : a.bindings = b.bindings) :
    a = b := by
  have hb : List.Forall₂ (· = ·) a.bindings b.bindings := by rw [List.forall₂_eq_eq_eq]; exact h
  have he := related_of_form Entry.isCongruence_eq Operand.isCongruence_eq hf hb
  rw [List.forall₂_eq_eq_eq] at he
  exact congrArg Condition.mk he

theorem same_of_form {a b : Condition} (hf : a.form = b.form)
    (h : Operand.sameItems a.bindings b.bindings = true) : a.same b = true := by
  have hb := Operand.sameItems_iff.mp h
  exact Entry.sameMembers_iff.mpr
    (related_of_form Entry.isCongruence_same Operand.isCongruence_same hf hb)

end Condition

end Offload
