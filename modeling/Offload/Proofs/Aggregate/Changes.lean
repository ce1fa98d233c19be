import Mathlib.Data.Set.Card
import Offload.Proofs.Aggregate.Repair

namespace Offload

theorem encard_countP {α : Type} {xs : List α} (distinct : xs.Nodup) (p : α → Bool) :
    ((xs.countP p : ℕ) : ℕ∞) = {x | x ∈ xs ∧ p x = true}.encard := by
  classical
  have hset : {x | x ∈ xs ∧ p x = true} = ((xs.filter p).toFinset : Set α) := by
    ext x
    simp
  rw [hset, Set.encard_coe_eq_coe_finsetCard, List.toFinset_card_of_nodup (distinct.filter p),
    List.countP_eq_length_filter]

/-- The fields whose cells differ in two rows. -/
def Row.changes (before after : Row) : Set String :=
  {field | after.find? field ≠ before.find? field}

namespace EmptyGroup

variable {group : EmptyGroup} {row : Row} {field : String} {expected : EmptyResult}

/-- A field that is repaired: its two results differ, and its cell shows that of the backend. -/
def Repairs (group : EmptyGroup) (row : Row) (field : String) (expected : EmptyResult) : Prop :=
  group.expected.find? field = some expected ∧
    ∃ actual, group.actual.find? field = some actual ∧ expected ≠ actual ∧
      actual.Shows (row.find? field)

/-- The fields without a cell for which the pipeline defines no result and the backend returns null. -/
def missing (group : EmptyGroup) (row : Row) : Set String :=
  {field | group.expected.find? field = some .absent ∧ group.actual.find? field = some .null ∧
    row.find? field = none}

theorem repair?_eq_some_iff {cell : Option Json} :
    group.repair? field cell = some expected ↔
      group.expected.find? field = some expected ∧
        ∃ actual, group.actual.find? field = some actual ∧ actual.Shows cell := by
  unfold repair?
  cases group.expected.find? field with
  | none => simp
  | some result =>
    cases group.actual.find? field with
    | none => simp
    | some actual =>
      by_cases hh : actual.holds cell = true
      · simp [hh, EmptyResult.holds_iff.mp hh]
      · have hs : ¬actual.Shows cell := fun hs => hh (EmptyResult.holds_iff.mpr hs)
        simp [hh, hs]

theorem repairs_iff :
    group.Repairs row field expected ↔
      field ∈ group.mismatched ∧ group.repair? field (row.find? field) = some expected := by
  rw [repair?_eq_some_iff, mem_mismatched_iff]
  constructor
  · rintro ⟨he, actual, ha, differ, hs⟩
    refine ⟨⟨expected, he, ?_⟩, he, actual, ha, hs⟩
    rw [ha]
    exact fun same => differ (Option.some.inj same).symm
  · rintro ⟨⟨result, hr, differ⟩, he, actual, ha, hs⟩
    obtain rfl := Option.some.inj (hr.symm.trans he)
    refine ⟨he, actual, ha, ?_, hs⟩
    rintro rfl
    exact differ ha

theorem find?_patch_repairs (h : group.Repairs row field expected) :
    expected.WrittenAs ((group.patch row).1.find? field) := by
  obtain ⟨hm, hr⟩ := repairs_iff.mp h
  rw [EmptyResult.writtenAs_iff, find?_patch, if_pos hm, repaired, hr]

theorem find?_patch_other (h : ¬∃ expected, group.Repairs row field expected) :
    (group.patch row).1.find? field = row.find? field := by
  rw [find?_patch]
  split
  next hm =>
    cases hr : group.repair? field (row.find? field) with
    | none => simp only [repaired, hr]
    | some expected => exact (h ⟨expected, repairs_iff.mpr ⟨hm, hr⟩⟩).elim
  next => rfl

/-- A field that a repair leaves as it is: it is not repaired, or a missing cell is taken away. -/
def Settled (group : EmptyGroup) (row : Row) (field : String) : Prop :=
  ∀ expected, group.repair? field (row.find? field) = some expected →
    expected = .absent ∧ row.find? field = none

theorem Settled.patchField (h : group.Settled row field) : (group.patchField row field).1 = row := by
  rw [patchField_eq]
  cases hr : group.repair? field (row.find? field) with
  | none => rfl
  | some expected =>
    obtain ⟨rfl, hcell⟩ := h expected hr
    exact Table.erase_missing hcell

theorem patchFields_settled {fields : List String} (h : ∀ field ∈ fields, group.Settled row field) :
    (group.patchFields fields row).1 = row := by
  induction fields with
  | nil => rfl
  | cons field rest ih =>
    have hfirst := (h field List.mem_cons_self).patchField
    rw [patchFields_cons, hfirst]
    exact ih fun other ho => h other (List.mem_cons_of_mem _ ho)

/-- What a field holds after its repair is not the backend's result, unless nothing is left of it. -/
theorem settled_patch (hm : field ∈ group.mismatched) : group.Settled (group.patch row).1 field := by
  intro expected hr
  have again : group.Repairs (group.patch row).1 field expected := repairs_iff.mpr ⟨hm, hr⟩
  obtain ⟨he, actual, ha, differ, hs⟩ := again
  have first : group.Repairs row field expected := by
    by_contra hn
    have hsame : (group.patch row).1.find? field = row.find? field := by
      refine find?_patch_other ?_
      rintro ⟨other, ho⟩
      obtain rfl := Option.some.inj (ho.1.symm.trans he)
      exact hn ho
    exact hn ⟨he, actual, ha, differ, hsame ▸ hs⟩
  obtain ⟨rfl, _, hnone⟩ := hs.of_writtenAs (find?_patch_repairs first) differ
  exact ⟨rfl, hnone⟩

/-- A repair writes the expected result into every repaired field, or takes its cell away if no result is
expected, and leaves all other cells as they are. A second repair changes nothing. -/
theorem patch_cells (group : EmptyGroup) (row : Row) :
    (∀ field expected, group.Repairs row field expected →
      expected.WrittenAs ((group.patch row).1.find? field)) ∧
    (∀ field, (¬∃ expected, group.Repairs row field expected) →
      (group.patch row).1.find? field = row.find? field) ∧
    (group.patch (group.patch row).1).1 = (group.patch row).1 :=
  ⟨fun _ _ h => find?_patch_repairs h, fun _ h => find?_patch_other h,
    patchFields_settled fun _ hm => settled_patch hm⟩

/-- A sum and an average of which the backend says null, beside a field that only one of the two sides
knows. The sum becomes the number that is expected, and the average is taken away. -/
theorem patch_cells_lone_minimum :
    let group : EmptyGroup := ⟨.ofList [("sum", .integer 7), ("avg", .absent)],
      .ofList [("min", .null), ("avg", .null), ("sum", .null)]⟩
    let row : Row := .ofList [("sum", .null), ("avg", .null), ("min", .null)]
    group.Repairs row "sum" (.integer 7) ∧ (group.patch row).1.find? "sum" = some (.int 7) ∧
      group.Repairs row "avg" .absent ∧ (group.patch row).1.find? "avg" = none ∧
      (¬∃ expected, group.Repairs row "min" expected) ∧
      (group.patch row).1.find? "min" = some .null ∧
      (group.patch (group.patch row).1).1 = (group.patch row).1 := by
  intro group row
  obtain ⟨hrepairs, hothers, hagain⟩ := patch_cells group row
  have hsum : group.Repairs row "sum" (.integer 7) := ⟨rfl, .null, rfl, by decide, .null⟩
  have havg : group.Repairs row "avg" .absent := ⟨rfl, .null, rfl, by decide, .null⟩
  have hmin : ¬∃ expected, group.Repairs row "min" expected := by
    rintro ⟨expected, he, _⟩
    cases he
  exact ⟨hsum, EmptyResult.writtenAs_iff.mp (hrepairs _ _ hsum), havg,
    EmptyResult.writtenAs_iff.mp (hrepairs _ _ havg), hmin, hothers _ hmin, hagain⟩

theorem count_patch_repairs (group : EmptyGroup) (row : Row) :
    ((group.patch row).2 : ℕ∞) = {field | ∃ expected, group.Repairs row field expected}.encard := by
  rw [count_patch, encard_countP group.mismatched_nodup]
  congr 1
  ext field
  simp only [Set.mem_ofPred_eq, repairs_iff, Option.isSome_iff_exists, exists_and_left]

theorem repairs_of_missing (h : field ∈ group.missing row) : group.Repairs row field .absent := by
  obtain ⟨he, ha, hcell⟩ := h
  exact ⟨he, .null, ha, by simp, hcell ▸ .missing⟩

theorem repairs_exists_iff :
    (∃ expected, group.Repairs row field expected) ↔
      field ∈ row.changes (group.patch row).1 ∨ field ∈ group.missing row := by
  constructor
  · rintro ⟨expected, h⟩
    by_cases same : (group.patch row).1.find? field = row.find? field
    · right
      have hw := find?_patch_repairs h
      rw [same] at hw
      obtain ⟨he, actual, ha, differ, hs⟩ := h
      obtain ⟨rfl, rfl, hnone⟩ := hs.of_writtenAs hw differ
      exact ⟨he, ha, hnone⟩
    · exact Or.inl same
  · rintro (h | h)
    · by_contra hn
      exact h (find?_patch_other hn)
    · exact ⟨.absent, repairs_of_missing h⟩

theorem not_missing_of_changes (h : field ∈ row.changes (group.patch row).1) :
    field ∉ group.missing row := by
  intro hm
  have hnone := EmptyResult.writtenAs_iff.mp (find?_patch_repairs (repairs_of_missing hm))
  exact h (hnone.trans hm.2.2.symm)

theorem count_patch_eq_add (group : EmptyGroup) (row : Row) :
    ((group.patch row).2 : ℕ∞) =
      (row.changes (group.patch row).1).encard + (group.missing row).encard := by
  have hdisjoint : Disjoint (row.changes (group.patch row).1) (group.missing row) :=
    Set.disjoint_left.mpr fun _ hc => not_missing_of_changes hc
  rw [count_patch_repairs, ← Set.encard_union_eq hdisjoint]
  congr 1
  ext field
  exact repairs_exists_iff

/-- The count of a repair is the number of the cells that it changes and of the missing cells that it takes
away, so it is the number of changes exactly if there are no such missing cells. -/
theorem count_patch_changes (group : EmptyGroup) (row : Row) :
    ((group.patch row).2 : ℕ∞) =
      (row.changes (group.patch row).1).encard + (group.missing row).encard ∧
    (((group.patch row).2 : ℕ∞) = (row.changes (group.patch row).1).encard ↔
      group.missing row = ∅) := by
  have hsum := count_patch_eq_add group row
  refine ⟨hsum, ?_⟩
  have hfinite : (row.changes (group.patch row).1).encard ≠ ⊤ := by
    intro htop
    rw [htop, top_add] at hsum
    exact ENat.natCast_ne_top _ hsum
  rw [hsum, ← Set.encard_eq_zero]
  constructor
  · intro h
    exact ENat.add_right_injective_of_ne_top hfinite (h.trans (add_zero _).symm)
  · intro h
    rw [h, add_zero]

/-- An average without a cell in the row of an empty group: nothing is there to take away, and it is
counted. -/
theorem count_patch_missing_average :
    let group := EmptyGroup.insert {} "avg" .absent .null
    (group.patch .empty).1 = .empty ∧ (group.patch .empty).2 = 1 ∧
      ((group.patch .empty).2 : ℕ∞) ≠ (Row.changes .empty (group.patch .empty).1).encard := by
  intro group
  have hrow : (group.patch .empty).1 = .empty := rfl
  have hcount : (group.patch .empty).2 = 1 := rfl
  refine ⟨hrow, hcount, ?_⟩
  rw [hrow, hcount]
  simp [Row.changes]

end EmptyGroup

end Offload
