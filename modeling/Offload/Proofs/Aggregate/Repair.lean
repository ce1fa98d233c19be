import Offload.Aggregate.EmptyGroup

namespace Offload

namespace EmptyResult

/-- The cells that show a result. A missing cell shows null as well as an absent result. -/
inductive Shows : EmptyResult → Option Json → Prop
  | integer {n : Int64} {m : Int} : n.toInt = m → Shows (.integer n) (some (.int m))
  | null : Shows .null (some .null)
  | missing : Shows .null none
  | absent : Shows .absent none

theorem holds_iff {result : EmptyResult} {cell : Option Json} :
    result.holds cell = true ↔ result.Shows cell := by
  constructor
  · intro h
    unfold holds at h
    split at h
    next => exact .integer (by simpa using h)
    next => exact .missing
    next => exact .null
    next => exact .absent
    next => cases h
  · intro h
    cases h with
    | integer hn => simpa [holds] using hn
    | null => rfl
    | missing => rfl
    | absent => rfl

/-- The cell that a result is written as. An absent result leaves none. -/
inductive WrittenAs : EmptyResult → Option Json → Prop
  | integer (n : Int64) : WrittenAs (.integer n) (some (.int n.toInt))
  | null : WrittenAs .null (some .null)
  | absent : WrittenAs .absent none

theorem writtenAs_iff {result : EmptyResult} {cell : Option Json} :
    result.WrittenAs cell ↔ cell = result.cell := by
  constructor
  · intro h
    cases h <;> rfl
  · rintro rfl
    cases result with
    | integer n => exact .integer n
    | null => exact .null
    | absent => exact .absent

/-- What one result is written as shows another one only where nothing is left in place of null. -/
theorem Shows.of_writtenAs {expected actual : EmptyResult} {cell : Option Json}
    (h : actual.Shows cell) (hw : expected.WrittenAs cell) (differ : expected ≠ actual) :
    expected = .absent ∧ actual = .null ∧ cell = none := by
  cases hw with
  | integer n =>
    cases h with
    | integer hm => exact (differ (congrArg EmptyResult.integer (Int64.toInt_inj.mp hm).symm)).elim
  | null =>
    cases h with
    | null => exact (differ rfl).elim
  | absent =>
    cases h with
    | missing => exact ⟨rfl, rfl, rfl⟩
    | absent => exact (differ rfl).elim

end EmptyResult

namespace EmptyGroup

/-- What a field has to hold instead of its cell, if the cell is the backend's result. -/
def repair? (group : EmptyGroup) (field : String) (cell : Option Json) : Option EmptyResult :=
  match group.expected.find? field, group.actual.find? field with
  | some expected, some actual => if actual.holds cell then some expected else none
  | _, _ => none

/-- The cell of a field after its repair. -/
def repaired (group : EmptyGroup) (field : String) (cell : Option Json) : Option Json :=
  match group.repair? field cell with
  | some result => result.cell
  | none => cell

theorem find?_write (row : Row) (field other : String) (result : EmptyResult) :
    (write row field result).find? other =
      if field = other then result.cell else row.find? other := by
  unfold write
  cases result.cell with
  | none => exact Table.find?_erase row field other
  | some cell => exact Table.find?_insert row field other cell

theorem patchField_eq (group : EmptyGroup) (row : Row) (field : String) :
    group.patchField row field =
      match group.repair? field (row.find? field) with
      | some result => (write row field result, true)
      | none => (row, false) := by
  unfold patchField repair?
  cases group.expected.find? field with
  | none => rfl
  | some expected =>
    cases group.actual.find? field with
    | none => rfl
    | some actual =>
      cases hh : actual.holds (row.find? field) with
      | false => simp only [hh, Bool.false_eq_true, ↓reduceIte]
      | true => simp only [hh, ↓reduceIte]

/-- One step of the repair changes no cell but that of its field. -/
theorem find?_patchField (group : EmptyGroup) (row : Row) (field other : String) :
    (group.patchField row field).1.find? other =
      if field = other then group.repaired field (row.find? field) else row.find? other := by
  rw [patchField_eq]
  unfold repaired
  cases group.repair? field (row.find? field) with
  | some result => exact find?_write row field other result
  | none =>
    by_cases same : field = other
    · simp [same]
    · simp [same]

theorem patchField_repaired (group : EmptyGroup) (row : Row) (field : String) :
    (group.patchField row field).2 = (group.repair? field (row.find? field)).isSome := by
  rw [patchField_eq]
  cases group.repair? field (row.find? field) <;> rfl

theorem patchFields_cons (group : EmptyGroup) (row : Row) (field : String) (rest : List String) :
    group.patchFields (field :: rest) row =
      ((group.patchFields rest (group.patchField row field).1).1,
        (group.patchFields rest (group.patchField row field).1).2 +
          if (group.repair? field (row.find? field)).isSome then 1 else 0) := by
  rw [← patchField_repaired]
  rfl

/-- Every field is repaired by what the row held at first, since no step touches the cell of another. -/
theorem find?_patchFields (group : EmptyGroup) {fields : List String} (hd : fields.Nodup) (row : Row)
    (field : String) :
    (group.patchFields fields row).1.find? field =
      if field ∈ fields then group.repaired field (row.find? field) else row.find? field := by
  induction fields generalizing row with
  | nil => simp [patchFields]
  | cons first rest ih =>
    obtain ⟨hfirst, hrest⟩ := List.nodup_cons.mp hd
    rw [patchFields_cons, ih hrest, find?_patchField]
    by_cases same : first = field
    · subst same
      simp [hfirst]
    · have other : field ≠ first := fun eq => same eq.symm
      simp [same, other]

theorem count_patchFields (group : EmptyGroup) {fields : List String} (hd : fields.Nodup) (row : Row) :
    (group.patchFields fields row).2 =
      fields.countP fun field => (group.repair? field (row.find? field)).isSome := by
  induction fields generalizing row with
  | nil => rfl
  | cons first rest ih =>
    obtain ⟨hfirst, hrest⟩ := List.nodup_cons.mp hd
    have hcells : ∀ field ∈ rest, (group.patchField row first).1.find? field = row.find? field := by
      intro field hf
      have other : first ≠ field := fun eq => hfirst (eq ▸ hf)
      rw [find?_patchField, if_neg other]
    have hcount : (rest.countP fun field =>
        (group.repair? field ((group.patchField row first).1.find? field)).isSome) =
          rest.countP fun field => (group.repair? field (row.find? field)).isSome := by
      apply List.countP_congr
      intro field hf
      rw [hcells field hf]
    rw [patchFields_cons, List.countP_cons, ih hrest, hcount]

theorem mem_mismatched_iff {group : EmptyGroup} {field : String} :
    field ∈ group.mismatched ↔ ∃ expected, group.expected.find? field = some expected ∧
      group.actual.find? field ≠ some expected := by
  unfold mismatched
  constructor
  · intro hm
    obtain ⟨⟨name, expected⟩, he, rfl⟩ := List.mem_map.mp hm
    obtain ⟨he, hne⟩ := List.mem_filter.mp he
    exact ⟨expected, Table.find?_eq_some_iff.mpr he, by simpa using hne⟩
  · rintro ⟨expected, he, hne⟩
    have hm := Table.find?_eq_some_iff.mp he
    exact List.mem_map.mpr ⟨(field, expected), List.mem_filter.mpr ⟨hm, by simpa using hne⟩, rfl⟩

theorem mismatched_nodup (group : EmptyGroup) : group.mismatched.Nodup :=
  group.expected.distinct.sublist (List.filter_sublist.map Prod.fst)

theorem find?_patch (group : EmptyGroup) (row : Row) (field : String) :
    (group.patch row).1.find? field =
      if field ∈ group.mismatched then group.repaired field (row.find? field)
      else row.find? field :=
  find?_patchFields group group.mismatched_nodup row field

theorem count_patch (group : EmptyGroup) (row : Row) :
    (group.patch row).2 =
      group.mismatched.countP fun field => (group.repair? field (row.find? field)).isSome :=
  count_patchFields group group.mismatched_nodup row

end EmptyGroup

end Offload
