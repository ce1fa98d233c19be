import Mathlib.Data.List.Nodup
import Mathlib.Data.List.Perm.Subperm
import Offload.Table

namespace Offload

namespace Table

variable {α β : Type}

section Entries

variable {xs ys : List (String × α)}

theorem lookupEntry_eq_of_perm (distinct : (xs.map Prod.fst).Nodup) (h : xs.Perm ys)
    (name : String) : lookupEntry name xs = lookupEntry name ys := by
  have hdistinct : (ys.map Prod.fst).Nodup := (h.map Prod.fst).nodup_iff.mp distinct
  apply Option.ext
  intro value
  rw [lookupEntry_eq_some_iff distinct, lookupEntry_eq_some_iff hdistinct]
  exact h.mem_iff

theorem perm_of_lookupEntry (hx : (xs.map Prod.fst).Nodup) (hy : (ys.map Prod.fst).Nodup)
    (h : ∀ name, lookupEntry name xs = lookupEntry name ys) : xs.Perm ys := by
  rw [List.perm_ext_iff_of_nodup (List.Nodup.of_map Prod.fst hx) (List.Nodup.of_map Prod.fst hy)]
  rintro ⟨name, value⟩
  rw [← lookupEntry_eq_some_iff hx, ← lookupEntry_eq_some_iff hy, h name]

theorem lookupEntry_map (f : α → β) (name : String) (xs : List (String × α)) :
    lookupEntry name (xs.map fun entry => (entry.1, f entry.2)) = (lookupEntry name xs).map f := by
  induction xs with
  | nil => rfl
  | cons entry rest ih =>
    rw [List.map_cons, lookupEntry, lookupEntry, ih]
    split <;> rfl

end Entries

variable {a b : Table α}

theorem find?_eq_of_perm (h : a.entries.Perm b.entries) (name : String) :
    a.find? name = b.find? name :=
  lookupEntry_eq_of_perm a.distinct h name

theorem isEmpty_eq_of_perm (h : a.entries.Perm b.entries) : a.isEmpty = b.isEmpty :=
  h.isEmpty_eq

theorem perm_of_isEmpty (ha : a.isEmpty = true) (hb : b.isEmpty = true) :
    a.entries.Perm b.entries := by
  rw [List.isEmpty_iff.mp ha, List.isEmpty_iff.mp hb]

theorem agrees_iff_perm [DecidableEq α] : a.agrees b = true ↔ a.entries.Perm b.entries := by
  have hlength : ∀ table : Table α, table.keys.length = table.entries.length := fun table =>
    List.length_map Prod.fst
  have hnodup : a.entries.Nodup := List.Nodup.of_map Prod.fst a.distinct
  simp only [agrees, hlength, Bool.and_eq_true, beq_iff_eq, List.all_eq_true, find?_eq_some_iff]
  constructor
  · rintro ⟨hsize, hsub⟩
    exact (hnodup.subperm hsub).perm_of_length_le (Nat.le_of_eq hsize.symm)
  · intro h
    exact ⟨h.length_eq, fun entry hm => h.mem_iff.mp hm⟩

end Table

end Offload
