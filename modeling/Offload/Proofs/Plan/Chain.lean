import Offload.Proofs.Plan.Reads

namespace Offload

/-- The number of rows that a limit stands for. -/
def limitRows (limit : Int64) : Nat :=
  limit.toInt.toNat

theorem Stage.declaredRows?_withSetting (stage : Stage) {limit : Int64} (hl : 0 ≤ limit.toInt) :
    (stage.withSetting limitOption (.integer limit)).declaredRows? = some (limitRows limit) := by
  simp [declaredRows?, limitOption, withSetting, setting?, Table.find?_insert, hl, limitRows]

namespace Planner

variable {p : Planner} {read : Stage}

/-- Stages that lower a limit, and are absorbed as long as the limit before fits, lower it to the least of
their numbers of rows. -/
theorem absorbedAll?_lower {limited : Nat → Decision} {stage : Int64 → Stage} {Fits : Nat → Prop}
    (hlower : ∀ prior rows, Fits prior → Fits (min prior rows))
    (hstep : ∀ prior limit, Fits prior → 0 ≤ limit.toInt →
      Transition p read (stage limit) (limited prior) (limited (min prior (limitRows limit))))
    {prior : Nat} (hprior : Fits prior) {limits : List Int64}
    (hlimits : ∀ limit ∈ limits, 0 ≤ limit.toInt) :
    p.absorbedAll? read (limited prior) (limits.map stage) =
      some (limited ((limits.map limitRows).foldl min prior)) := by
  induction limits generalizing prior with
  | nil => rfl
  | cons limit rest ih =>
    have ho := offer_of_transition (hstep prior limit hprior (hlimits limit (by simp)))
    rw [List.map_cons, absorbedAll?_taken ho]
    exact ih (hlower prior _ hprior) (fun other hm => hlimits other (by simp [hm]))

theorem absorbedAll?_heads (p : Planner) (read : Stage) {first : Int64} {rest : List Int64}
    (hlimits : ∀ limit ∈ first :: rest, 0 ≤ limit.toInt) :
    p.absorbedAll? read .none ((first :: rest).map .head) =
      some (.head ((rest.map limitRows).foldl min (limitRows first))) := by
  have hfirst : Transition p read (.head first) .none (.head (limitRows first)) :=
    .head rfl (Stage.declaredRows?_withSetting _ (hlimits first (by simp)))
  rw [List.map_cons, absorbedAll?_taken (offer_of_transition hfirst)]
  have hlower : ∀ prior rows : Nat, True → True := fun _ _ h => h
  refine absorbedAll?_lower hlower ?_ trivial (fun limit hm => hlimits limit (by simp [hm]))
  intro prior limit _ hl
  exact .headAgain rfl (Stage.declaredRows?_withSetting _ hl)

/-- Only the limit so far is compared with the size of a page, and it never grows. -/
theorem absorbedAll?_tails {size : Nat} (hsize : read.fetchRows? p.config.fetchSize = some size)
    {first : Int64} {rest : List Int64} (hfits : limitRows first ≤ size)
    (hlimits : ∀ limit ∈ first :: rest, 0 ≤ limit.toInt) :
    p.absorbedAll? read .none ((first :: rest).map .tail) =
      some (.tail ((rest.map limitRows).foldl min (limitRows first))) := by
  have hfirst : Transition p read (.tail first) .none (.tail (limitRows first)) :=
    .tail rfl (Stage.declaredRows?_withSetting _ (hlimits first (by simp))) hsize hfits
  rw [List.map_cons, absorbedAll?_taken (offer_of_transition hfirst)]
  have hlower : ∀ prior rows : Nat, prior ≤ size → min prior rows ≤ size := by omega
  refine absorbedAll?_lower hlower ?_ hfits (fun limit hm => hlimits limit (by simp [hm]))
  intro prior limit hp hl
  exact .tailAgain rfl (Stage.declaredRows?_withSetting _ hl) hsize (hlower prior _ hp)

theorem offer_tail_small {size : Nat} (hsize : read.fetchRows? p.config.fetchSize = some size)
    {limit : Int64} (hl : 0 ≤ limit.toInt) (hsmall : size < limitRows limit) :
    p.offer read .none (.tail limit) = (.none, some (.smallFetch (limitRows limit) size)) := by
  have hrows : (Stage.tail limit).limit = .ok (limitRows limit) :=
    Stage.limit_eq_ok_iff.mpr (Stage.declaredRows?_withSetting _ hl)
  have ha : p.absorbTail read .none (.tail limit) = .error (.smallFetch (limitRows limit) size) := by
    rw [absorbTail, hrows, fetchSize_eq_ok_iff.mpr hsize]
    exact if_pos hsmall
  have hk : (Stage.tail limit).kind = .tail := rfl
  simp only [offer, absorb, hk, ha]

/-- A chain of tails is absorbed as a whole if a page holds the rows of the first one, however many rows the
later ones have, and otherwise stops at the first one. A chain of heads is always absorbed. Either keeps
the least number of rows. -/
theorem plan_chain (p : Planner) {first : Int64} {rest : List Int64}
    (hlimits : ∀ limit ∈ first :: rest, 0 ≤ limit.toInt) :
    ∃ least, ((first :: rest).map limitRows).min? = some least ∧
      (∀ read size, read.fetchRows? p.config.fetchSize = some size →
        p.plan read ((first :: rest).map .tail) =
          if limitRows first ≤ size then ⟨.tail least, (first :: rest).length, none⟩
          else ⟨.none, 0, some ⟨0, .smallFetch (limitRows first) size⟩⟩) ∧
      ∀ read, p.plan read ((first :: rest).map .head) =
        ⟨.head least, (first :: rest).length, none⟩ := by
  refine ⟨_, by rw [List.map_cons, List.min?_cons'], ?_, ?_⟩
  · intro read size hsize
    split
    next hfits =>
      have h := plan_of_scans (.complete (absorbedAll?_tails hsize hfits hlimits))
      rwa [List.length_map] at h
    next hsmall =>
      have ho := offer_tail_small hsize (hlimits first (by simp)) (by omega)
      have hstart : p.absorbedAll? read .none [] = some .none := rfl
      exact plan_of_scans (.stopped hstart ho)
  · intro read
    have h := plan_of_scans (.complete (absorbedAll?_heads p read hlimits))
    rwa [List.length_map] at h

/-- A later tail of more rows than a page holds does not stop the chain, but such a first one does. Heads do
not need the number of rows of a page. -/
theorem plan_chain_small_pages :
    let read := Stage.withSetting { kind := .read } "fetchSize" (.integer 5)
    let unread := Stage.withSetting { kind := .read } "fetchSize" (.string "many")
    Planner.plan {} read ([4, 9, 2, 7].map .tail) = ⟨.tail 2, 4, none⟩ ∧
      Planner.plan {} read ([9, 4].map .tail) = ⟨.none, 0, some ⟨0, .smallFetch 9 5⟩⟩ ∧
      Planner.plan {} unread ([4, 9, 2, 7].map .head) = ⟨.head 2, 4, none⟩ := by
  intro read unread
  have hrising : ∀ limit ∈ [4, 9, 2, 7], 0 ≤ Int64.toInt limit := by simp
  have hfalling : ∀ limit ∈ [9, 4], 0 ≤ Int64.toInt limit := by simp
  obtain ⟨least, hleast, htails, hheads⟩ := plan_chain {} hrising
  obtain ⟨_, _, hsmall, _⟩ := plan_chain {} hfalling
  cases hleast
  exact ⟨htails read 5 rfl, hsmall read 5 rfl, hheads unread⟩

end Planner

end Offload
