import Mathlib.Data.Option.Basic
import Offload.Json.Reader
import Offload.Proofs.Table

namespace Offload

namespace Json

open Table (lookupEntry)

theorem sortedItems_eq (items : List Json) : sortedItems items = items.map sorted := by
  induction items with
  | nil => rfl
  | cons item rest ih => rw [sortedItems, List.map_cons, ih]

theorem sortedMembers_eq (members : List (String × Json)) :
    sortedMembers members = members.map fun member => (member.1, member.2.sorted) := by
  induction members with
  | nil => rfl
  | cons member rest ih => rw [sortedMembers, List.map_cons, ih]

/-- The members of an object in increasing order of their names, themselves in order. -/
def ordered (members : List (String × Json)) : List (String × Json) :=
  (sortedMembers members).mergeSort fun a b => decide (a.1 ≤ b.1)

theorem sorted_object (members : List (String × Json)) :
    (object members).sorted = .object (ordered members) :=
  rfl

theorem ordered_perm (members : List (String × Json)) :
    (ordered members).Perm (members.map fun member => (member.1, member.2.sorted)) := by
  rw [← sortedMembers_eq]
  exact List.mergeSort_perm _ _

theorem ordered_names (members : List (String × Json)) :
    ((ordered members).map Prod.fst).Perm (members.map Prod.fst) := by
  have h := (ordered_perm members).map Prod.fst
  rwa [List.map_map] at h

theorem ordered_pairwise (members : List (String × Json)) :
    (ordered members).Pairwise fun a b => a.1 ≤ b.1 := by
  have htrans : ∀ a b c : String × Json, decide (a.1 ≤ b.1) = true → decide (b.1 ≤ c.1) = true →
      decide (a.1 ≤ c.1) = true := by
    intro a b c hab hbc
    exact decide_eq_true (String.le_trans (of_decide_eq_true hab) (of_decide_eq_true hbc))
  have htotal : ∀ a b : String × Json, (decide (a.1 ≤ b.1) || decide (b.1 ≤ a.1)) = true := by
    intro a b
    rw [Bool.or_eq_true, decide_eq_true_eq, decide_eq_true_eq]
    exact String.le_total a.1 b.1
  have hsorted := List.pairwise_mergeSort htrans htotal (sortedMembers members)
  exact hsorted.imp of_decide_eq_true

variable {xs ys : List (String × Json)}

theorem lookupEntry_ordered (hx : (xs.map Prod.fst).Nodup) (name : String) :
    lookupEntry name (ordered xs) = (lookupEntry name xs).map sorted := by
  have hdistinct : ((ordered xs).map Prod.fst).Nodup := (ordered_names xs).nodup_iff.mpr hx
  rw [Table.lookupEntry_eq_of_perm hdistinct (ordered_perm xs), Table.lookupEntry_map]

/-- Two objects are the same in order if and only if they give the same value to every name. -/
theorem sorted_object_eq_iff (hx : (xs.map Prod.fst).Nodup) (hy : (ys.map Prod.fst).Nodup) :
    (object xs).sorted = (object ys).sorted ↔
      ∀ name, (lookupEntry name xs).map sorted = (lookupEntry name ys).map sorted := by
  rw [sorted_object, sorted_object, object.injEq]
  constructor
  · intro h name
    rw [← lookupEntry_ordered hx, ← lookupEntry_ordered hy, h]
  · intro h
    have hx' : ((ordered xs).map Prod.fst).Nodup := (ordered_names xs).nodup_iff.mpr hx
    have hy' : ((ordered ys).map Prod.fst).Nodup := (ordered_names ys).nodup_iff.mpr hy
    have hperm : (ordered xs).Perm (ordered ys) := by
      apply Table.perm_of_lookupEntry hx' hy'
      intro name
      rw [lookupEntry_ordered hx, lookupEntry_ordered hy, h name]
    apply hperm.eq_of_pairwise _ (ordered_pairwise xs) (ordered_pairwise ys)
    intro a b ha hb hab hba
    have hname : a.1 = b.1 := String.le_antisymm hab hba
    exact List.inj_on_of_nodup_map hx' ha (hperm.mem_iff.mpr hb) hname

@[simp]
theorem sorted_bool (b : Bool) : (bool b).sorted = .bool b :=
  rfl

@[simp]
theorem sorted_int (n : Int) : (int n).sorted = .int n :=
  rfl

@[simp]
theorem sorted_string (text : String) : (string text).sorted = .string text :=
  rfl

@[simp]
theorem sorted_tagged (tag : String) (value : Json) :
    (object [(tag, value)]).sorted = .object [(tag, value.sorted)] := by
  rw [sorted_object, ordered, sortedMembers_eq, List.map_singleton, List.mergeSort_singleton]

theorem sorted_strings (texts : List String) :
    (array (texts.map .string)).sorted = .array (texts.map .string) := by
  rw [sorted, sortedItems_eq, List.map_map]
  rfl

theorem sorted_strings_eq_iff {texts others : List String} :
    (array (texts.map .string)).sorted = (array (others.map .string)).sorted ↔ texts = others := by
  have hinj : Function.Injective Json.string := fun _ _ h => string.inj h
  rw [sorted_strings, sorted_strings, array.injEq, List.map_inj_right hinj]

/-- The object of a table keeps what every name has, and not the order of the names. -/
theorem sorted_table_eq_iff {α : Type} {f : α → Json}
    (hf : ∀ x y, (f x).sorted = (f y).sorted → x = y) {a b : Table α} :
    (object (a.entries.map fun entry => (entry.1, f entry.2))).sorted =
        (object (b.entries.map fun entry => (entry.1, f entry.2))).sorted ↔
      a.entries.Perm b.entries := by
  have hdistinct : ∀ table : Table α,
      ((table.entries.map fun entry => (entry.1, f entry.2)).map Prod.fst).Nodup := by
    intro table
    rw [List.map_map]
    exact table.distinct
  have hinj : Function.Injective (Option.map fun x => (f x).sorted) :=
    Option.map_injective hf
  rw [sorted_object_eq_iff (hdistinct a) (hdistinct b)]
  simp only [Table.lookupEntry_map, Option.map_map, Function.comp_def, hinj.eq_iff]
  exact ⟨Table.perm_of_lookupEntry a.distinct b.distinct,
    fun h => Table.lookupEntry_eq_of_perm a.distinct h⟩

/-- The members of an object that leaves out those without a value. -/
def present (parts : List (String × Option Json)) : List (String × Json) :=
  parts.filterMap fun part => part.2.map fun value => (part.1, value)

theorem present_names (parts : List (String × Option Json)) :
    ((present parts).map Prod.fst).Sublist (parts.map Prod.fst) := by
  induction parts with
  | nil => exact List.Sublist.slnil
  | cons part rest ih =>
    obtain ⟨name, value?⟩ := part
    cases value? with
    | none => exact ih.cons name
    | some value => exact ih.cons_cons name

theorem lookupEntry_present {parts : List (String × Option Json)}
    (distinct : (parts.map Prod.fst).Nodup) (name : String) :
    lookupEntry name (present parts) = (lookupEntry name parts).join := by
  have hpresent : ((present parts).map Prod.fst).Nodup := distinct.sublist (present_names parts)
  apply Option.ext
  intro value
  rw [Table.lookupEntry_eq_some_iff hpresent, Option.join_eq_some_iff,
    Table.lookupEntry_eq_some_iff distinct]
  simp [present]

/-- Two objects of the same members, of which each leaves out some, are the same in order if and only if
they leave out the same and give the same values to the others. -/
theorem sorted_present_eq_iff {parts others : List (String × Option Json)}
    (distinct : (parts.map Prod.fst).Nodup) (names : others.map Prod.fst = parts.map Prod.fst) :
    (object (present parts)).sorted = (object (present others)).sorted ↔
      parts.map (fun part => part.2.map sorted) = others.map fun part => part.2.map sorted := by
  have distinct' : (others.map Prod.fst).Nodup := names ▸ distinct
  have hsize : parts.length = others.length := by
    simpa only [List.length_map] using (congrArg List.length names).symm
  have hname : ∀ i (hi : i < parts.length) (hi' : i < others.length), others[i].1 = parts[i].1 := by
    intro i hi hi'
    have hplace : (others.map Prod.fst)[i]? = (parts.map Prod.fst)[i]? := by rw [names]
    simpa [hi, hi'] using hplace
  rw [sorted_object_eq_iff (distinct.sublist (present_names parts))
    (distinct'.sublist (present_names others))]
  simp only [lookupEntry_present distinct, lookupEntry_present distinct']
  constructor
  · intro h
    apply List.ext_getElem (by simpa using hsize)
    intro i hi hi'
    rw [List.length_map] at hi hi'
    have hfound : lookupEntry parts[i].1 parts = some parts[i].2 :=
      (Table.lookupEntry_eq_some_iff distinct).mpr (List.getElem_mem hi)
    have hfound' : lookupEntry parts[i].1 others = some others[i].2 := by
      rw [Table.lookupEntry_eq_some_iff distinct', ← hname i hi hi']
      exact List.getElem_mem hi'
    have hvalue := h parts[i].1
    rw [hfound, hfound'] at hvalue
    simpa using hvalue
  · intro h name
    have hparts : parts.map (fun part => (part.1, part.2.map sorted)) =
        others.map fun part => (part.1, part.2.map sorted) := by
      have hzip := congrArg₂ List.zip names.symm h
      simpa only [List.zip_map', Function.comp_def] using hzip
    have hfound := congrArg (lookupEntry name) hparts
    rw [Table.lookupEntry_map, Table.lookupEntry_map] at hfound
    rw [← Option.join_map_eq_map_join, ← Option.join_map_eq_map_join, hfound]

theorem sorted_pair_eq_iff {first second : String} (h : first ≠ second) {x y x' y' : Json} :
    (object [(first, x), (second, y)]).sorted = (object [(first, x'), (second, y')]).sorted ↔
      x.sorted = x'.sorted ∧ y.sorted = y'.sorted := by
  have hparts := @sorted_present_eq_iff [(first, some x), (second, some y)]
    [(first, some x'), (second, some y')] (by simp [h]) rfl
  simpa [present] using hparts

end Json

end Offload
