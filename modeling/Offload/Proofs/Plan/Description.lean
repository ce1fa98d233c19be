import Offload.Proofs.Json.Order
import Offload.Proofs.Plan.Session
import Offload.Proofs.Setting

namespace Offload

section Values

theorem Interval.eq_of_sorted_toJson {i j : Interval} (h : i.toJson.sorted = j.toJson.sorted) :
    i = j := by
  obtain ⟨months, millis⟩ := i
  obtain ⟨months', millis'⟩ := j
  obtain ⟨hmonths, hmillis⟩ := (Json.sorted_pair_eq_iff (by decide)).mp h
  have hmonths : months = months' := by simpa [UInt32.toNat_inj] using hmonths
  have hmillis : millis = millis' := by simpa [Int64.toInt_inj] using hmillis
  rw [hmonths, hmillis]

/-- The tag tells the kinds of settings apart, and the value under it the settings of one kind. -/
theorem Setting.eq_of_sorted_toJson {s t : Setting} (hs : s.IsDiscrete)
    (h : s.toJson.sorted = t.toJson.sorted) : s = t := by
  cases s with
  | number x => cases hs
  | moment m => cases hs
  | integer n =>
    cases t with
    | integer m => simpa [toJson, Int64.toInt_inj] using h
    | _ => simp [toJson] at h
  | boolean b =>
    cases t with
    | boolean c => simpa [toJson] using h
    | _ => simp [toJson] at h
  | string text =>
    cases t with
    | string other => simpa [toJson] using h
    | _ => simp [toJson] at h
  | fields names =>
    cases t with
    | fields others => simpa [toJson, Json.sorted_strings_eq_iff] using h
    | _ => simp [toJson] at h
  | interval i =>
    cases t with
    | interval j =>
      have hvalue : i.toJson.sorted = j.toJson.sorted := by simpa [toJson] using h
      rw [Interval.eq_of_sorted_toJson hvalue]
    | _ => simp [toJson] at h
  | dynamic source =>
    cases t with
    | dynamic other => simpa [toJson] using h
    | _ => simp [toJson] at h

theorem Reducer.eq_of_name {a b : Reducer} (h : a.name = b.name) : a = b := by
  have hfound := Reducer.ofName?_eq_some_iff.mpr h
  rw [Reducer.ofName?_eq_some_iff.mpr rfl] at hfound
  exact (Option.some.inj hfound).symm

theorem Aggregate.eq_of_sorted_toJson {a b : Aggregate} (h : a.toJson.sorted = b.toJson.sorted) :
    a = b := by
  cases a with
  | function reducer field =>
    cases b with
    | function other field' =>
      have hcall : reducer.name = other.name ∧ field = field' := by
        simpa [toJson, Json.sorted_pair_eq_iff] using h
      rw [Reducer.eq_of_name hcall.1, hcall.2]
    | raw _ => simp [toJson] at h
  | raw expression =>
    cases b with
    | function _ _ => simp [toJson] at h
    | raw other => simpa [toJson] using h

theorem EmptyResult.eq_of_sorted_toJson {x y : EmptyResult} (h : x.toJson.sorted = y.toJson.sorted) :
    x = y := by
  cases x with
  | integer n =>
    cases y with
    | integer m => simpa [toJson, Int64.toInt_inj] using h
    | _ => simp [toJson] at h
  | null => cases y <;> simp [toJson] at h ⊢
  | absent => cases y <;> simp [toJson] at h ⊢

theorem DecisionKind.eq_of_name {a b : DecisionKind} (h : a.name = b.name) : a = b := by
  cases a <;> cases b <;> simp [name] at h ⊢

end Values

namespace EmptyGroup

/-- Two groups say the same, in whatever order their tables are. -/
def Alike (group other : EmptyGroup) : Prop :=
  group.expected.entries.Perm other.expected.entries ∧
    group.actual.entries.Perm other.actual.entries

theorem Alike.isEmpty {group other : EmptyGroup} (h : group.Alike other) :
    group.isEmpty = other.isEmpty := by
  rw [EmptyGroup.isEmpty, EmptyGroup.isEmpty, Table.isEmpty_eq_of_perm h.1,
    Table.isEmpty_eq_of_perm h.2]

theorem alike_of_isEmpty {group other : EmptyGroup} (h : group.isEmpty = true)
    (h' : other.isEmpty = true) : group.Alike other := by
  rw [isEmpty, Bool.and_eq_true] at h h'
  exact ⟨Table.perm_of_isEmpty h.1 h'.1, Table.perm_of_isEmpty h.2 h'.2⟩

theorem sorted_toJson_eq_iff {group other : EmptyGroup} :
    group.toJson.sorted = other.toJson.sorted ↔ group.Alike other := by
  have hresults : ∀ a b : Table EmptyResult,
      (resultsToJson a).sorted = (resultsToJson b).sorted ↔ a.entries.Perm b.entries :=
    fun a b => Json.sorted_table_eq_iff fun _ _ h => EmptyResult.eq_of_sorted_toJson h
  rw [Alike, ← hresults, ← hresults]
  exact Json.sorted_pair_eq_iff (by decide)

end EmptyGroup

namespace Decision

/-- The members of a description, those that are left out too. -/
def parts (d : Decision) : List (String × Option Json) :=
  [("kind", some (.string d.kind.name)),
    ("limit", d.limit?.map fun limit => .int (limit : Nat)),
    ("group_by", if d.groupBy.isEmpty then Option.none else some (.array (d.groupBy.map .string))),
    ("window_every", d.every?.map Interval.toJson),
    ("window_anchor", d.anchor?.map Setting.toJson),
    ("aggregations", if d.outputs.isEmpty then Option.none
      else some (.object (d.outputs.entries.map fun entry => (entry.1, entry.2.toJson)))),
    ("empty_group", if d.emptyGroup.isEmpty then Option.none else some d.emptyGroup.toJson)]

theorem present_optional {α : Type} (name : String) (write : α → Json) (value? : Option α)
    (rest : List (String × Option Json)) :
    Json.present ((name, value?.map write) :: rest) =
      optionalMember name write value? ++ Json.present rest := by
  cases value? <;> rfl

theorem present_omitted (name : String) (b : Bool) (x : Json) (rest : List (String × Option Json)) :
    Json.present ((name, if b then Option.none else some x) :: rest) =
      (if b then [] else [(name, x)]) ++ Json.present rest := by
  cases b <;> rfl

theorem members_eq (d : Decision) : d.members = Json.present d.parts := by
  have hkind : ∀ rest, Json.present (("kind", some (.string d.kind.name)) :: rest) =
      ("kind", .string d.kind.name) :: Json.present rest := fun _ => rfl
  have hnil : Json.present [] = [] := rfl
  simp only [members, parts, hkind, hnil, present_optional, present_omitted, List.cons_append,
    List.append_assoc, List.append_nil]

/-- A member that is left out if its value is empty tells the value, if all empty values are the same. -/
theorem omitted_eq_iff {b c : Bool} {x y : Json} {same : Prop} (h : x.sorted = y.sorted ↔ same)
    (hsame : same → b = c) (hempty : b = true → c = true → same) :
    (if b then Option.none else some x).map Json.sorted =
      (if c then Option.none else some y).map Json.sorted ↔ same := by
  cases b with
  | false =>
    cases c with
    | false => simpa using h
    | true => simpa using hsame
  | true =>
    cases c with
    | false => simpa using hsame
    | true => simpa using hempty

theorem optional_eq_iff {α : Type} {write : α → Json} {x? y? : Option α}
    (h : ∀ x y, x? = some x → (write x).sorted = (write y).sorted → x = y) :
    (x?.map write).map Json.sorted = (y?.map write).map Json.sorted ↔ x? = y? := by
  constructor
  · intro heq
    cases x? with
    | none => simpa [eq_comm] using heq
    | some x =>
      cases y? with
      | none => simp at heq
      | some y =>
        have hvalue : (write x).sorted = (write y).sorted := by simpa using heq
        rw [h x y rfl hvalue]
  · intro heq
    rw [heq]

variable {d e : Decision}

theorem window_eq_iff :
    d.summary.window = e.summary.window ↔ d.every? = e.every? ∧ d.anchor? = e.anchor? := by
  rw [every?, every?, anchor?, anchor?]
  cases d.summary.window with
  | none => cases e.summary.window with
    | none => simp
    | some w => simp
  | some v => cases e.summary.window with
    | none => simp
    | some w =>
      obtain ⟨every, anchor⟩ := v
      obtain ⟨every', anchor'⟩ := w
      simp

theorem agrees_iff : d.agrees e = true ↔
    d.kind = e.kind ∧ d.limit? = e.limit? ∧ d.groupBy = e.groupBy ∧ d.every? = e.every? ∧
      d.anchor? = e.anchor? ∧ d.outputs.entries.Perm e.outputs.entries ∧
      d.emptyGroup.Alike e.emptyGroup := by
  simp only [agrees, Summary.agrees, Bool.and_eq_true, decide_eq_true_eq, Table.agrees_iff_perm,
    window_eq_iff, EmptyGroup.Alike, groupBy, outputs, emptyGroup, and_assoc]

/-- The descriptions of two decisions are the same value if and only if the decisions say the same. Only
an anchor that is a double or a moment may have the text of another. -/
theorem description_eq_iff_agrees (hd : ∀ anchor, d.anchor? = some anchor → anchor.IsDiscrete) :
    d.toJson.sorted = e.toJson.sorted ↔ d.agrees e = true := by
  have hkind : d.kind.name = e.kind.name ↔ d.kind = e.kind :=
    ⟨DecisionKind.eq_of_name, congrArg DecisionKind.name⟩
  have hlimit : (d.limit?.map fun limit => Json.int (limit : Nat)).map Json.sorted =
      (e.limit?.map fun limit => Json.int (limit : Nat)).map Json.sorted ↔ d.limit? = e.limit? :=
    optional_eq_iff fun x y _ h => by simpa using h
  have hgroupBy := omitted_eq_iff (@Json.sorted_strings_eq_iff d.groupBy e.groupBy)
    (congrArg List.isEmpty)
    fun hx hy => (List.isEmpty_iff.mp hx).trans (List.isEmpty_iff.mp hy).symm
  have hevery : (d.every?.map Interval.toJson).map Json.sorted =
      (e.every?.map Interval.toJson).map Json.sorted ↔ d.every? = e.every? :=
    optional_eq_iff fun _ _ _ => Interval.eq_of_sorted_toJson
  have hanchor : (d.anchor?.map Setting.toJson).map Json.sorted =
      (e.anchor?.map Setting.toJson).map Json.sorted ↔ d.anchor? = e.anchor? :=
    optional_eq_iff fun anchor _ hfound => Setting.eq_of_sorted_toJson (hd anchor hfound)
  have houtputs := omitted_eq_iff
    (@Json.sorted_table_eq_iff _ _ (fun _ _ => Aggregate.eq_of_sorted_toJson) d.outputs e.outputs)
    Table.isEmpty_eq_of_perm Table.perm_of_isEmpty
  have hempty := omitted_eq_iff (@EmptyGroup.sorted_toJson_eq_iff d.emptyGroup e.emptyGroup)
    EmptyGroup.Alike.isEmpty EmptyGroup.alike_of_isEmpty
  have distinct : (d.parts.map Prod.fst).Nodup := by simp [parts]
  have names : e.parts.map Prod.fst = d.parts.map Prod.fst := rfl
  rw [toJson, toJson, members_eq, members_eq, Json.sorted_present_eq_iff distinct names, agrees_iff]
  simp only [parts, List.map_cons, List.map_nil, List.cons.injEq, Option.map_some, Option.some.injEq,
    Json.sorted_string, Json.string.injEq, hkind, hlimit, hgroupBy, hevery, hanchor, houtputs,
    hempty, and_true]

/-- Outputs in another order, and an offer that is refused, leave the description as it is. An anchor of
another kind with the same text does not. -/
theorem description_eq_iff_agrees_hourly :
    let read := (Stage.withSetting { kind := .read } "from" (.integer 0)).withSetting "to" (.integer 9)
    let total := Assignment.ofField "sum" "bytes"
    let rows : Assignment := ⟨.field "n", .call "count" []⟩
    let hourly (assignments : List Assignment) (anchor : Setting) : Stage :=
      ((Stage.reduce assignments).withSetting "every" (.interval ⟨0, 3600000⟩)).withSetting "on" anchor
    let d := (Session.run {} [⟨read, hourly [total, rows] (.string "host")⟩]).decision
    let e := (Session.run {} [⟨read, hourly [rows, total] (.string "host")⟩,
      ⟨read, .head 5⟩]).decision
    let f := (Session.run {} [⟨read, hourly [total, rows] (.fields ["host"])⟩]).decision
    d.anchor? = some (.string "host") ∧ d ≠ e ∧ d.toJson.sorted = e.toJson.sorted ∧
      d.toJson.sorted ≠ f.toJson.sorted := by
  intro read total rows hourly d e f
  have hanchor : d.anchor? = some (.string "host") := by decide
  have hdiscrete : ∀ anchor, d.anchor? = some anchor → anchor.IsDiscrete := by
    intro anchor h
    rw [hanchor] at h
    cases h
    trivial
  have hsame : d.agrees e = true := by decide
  have hother : ¬d.agrees f = true := by decide
  exact ⟨hanchor, by decide, (description_eq_iff_agrees hdiscrete).mpr hsame,
    fun h => hother ((description_eq_iff_agrees hdiscrete).mp h)⟩

end Decision

end Offload
