import Offload.Sql.Pattern

namespace Offload

namespace Wildcards

variable {w : Wildcards} {c : Char} {pattern text : List Char}

theorem Matches.run_inv (hc : c = w.run) (h : w.Matches (c :: pattern) text) :
    ∃ skipped rest, text = skipped ++ rest ∧ w.Matches pattern rest := by
  cases h with
  | run skipped hr => exact ⟨skipped, _, rfl, hr⟩
  | one c hr => exact ⟨[c], _, rfl, hr⟩
  | self hrun => exact (hrun hc).elim

theorem Matches.one_inv (hc : c = w.one) (hw : w.one ≠ w.run) (h : w.Matches (c :: pattern) text) :
    ∃ d rest, text = d :: rest ∧ w.Matches pattern rest := by
  cases h with
  | run => exact (hw hc.symm).elim
  | one d hr => exact ⟨d, _, rfl, hr⟩
  | self _ hone => exact (hone hc).elim

theorem Matches.self_inv (hrun : c ≠ w.run) (hone : c ≠ w.one) (h : w.Matches (c :: pattern) text) :
    ∃ rest, text = c :: rest ∧ w.Matches pattern rest := by
  cases h with
  | run => exact (hrun rfl).elim
  | one => exact (hone rfl).elim
  | self _ _ hr => exact ⟨_, rfl, hr⟩

/-- A text holds every character of a pattern that stands for itself. -/
theorem Matches.mem (h : w.Matches pattern text) (hc : c ∈ pattern) (hrun : c ≠ w.run)
    (hone : c ≠ w.one) : c ∈ text := by
  induction h with
  | done => exact hc
  | run skipped _ ih =>
    have hm := ih ((List.mem_cons.mp hc).resolve_left hrun)
    exact List.mem_append_right skipped hm
  | one d _ ih =>
    have hm := ih ((List.mem_cons.mp hc).resolve_left hone)
    exact List.mem_cons_of_mem d hm
  | self _ _ _ ih =>
    rcases List.mem_cons.mp hc with rfl | hc
    · exact List.mem_cons_self
    · exact List.mem_cons_of_mem _ (ih hc)

/-- A text that a pattern matches, with nothing for a run and a letter for any one character. -/
def plainText (w : Wildcards) : List Char → List Char
  | [] => []
  | c :: rest =>
    if c = w.run then w.plainText rest
    else if c = w.one then 'x' :: w.plainText rest
    else c :: w.plainText rest

theorem matches_plainText (w : Wildcards) (pattern : List Char) :
    w.Matches pattern (w.plainText pattern) := by
  induction pattern with
  | nil => exact .done
  | cons c rest ih =>
    unfold plainText
    split
    next hrun =>
      subst hrun
      exact .run [] ih
    next hrun =>
      split
      next hone =>
        subst hone
        exact .one 'x' ih
      next hone => exact .self hrun hone ih

theorem not_mem_plainText (hx : c ≠ 'x') (hc : c = w.run ∨ c = w.one) (pattern : List Char) :
    c ∉ w.plainText pattern := by
  induction pattern with
  | nil => simp [plainText]
  | cons d rest ih =>
    unfold plainText
    split
    next => exact ih
    next hrun =>
      split
      next => simp [hx, ih]
      next hone =>
        have hd : c ≠ d := by
          rintro rfl
          exact hc.elim hrun hone
        simp [hd, ih]

end Wildcards

open Wildcards

variable {pattern text : List Char}

theorem likeChar_self {c : Char} (hrun : c ≠ '*') (hone : c ≠ '?') : likeChar c = c := by
  rw [likeChar, if_neg hrun, if_neg hone]

/-- No text that a glob matches is lost, whatever characters the glob holds. -/
theorem matches_like_of_glob (h : globWildcards.Matches pattern text) :
    likeWildcards.Matches (pattern.map likeChar) text := by
  induction h with
  | done => exact .done
  | run skipped _ ih => exact .run skipped ih
  | one c _ ih => exact .one c ih
  | @self pattern rest c hrun hone _ ih =>
    rw [List.map_cons, likeChar_self hrun hone]
    -- If LIKE takes the character for a wildcard, the wildcard stands for the character as well.
    by_cases hlike : c = likeWildcards.run
    · subst hlike
      exact .run [_] ih
    · by_cases hlike' : c = likeWildcards.one
      · subst hlike'
        exact .one _ ih
      · exact .self hlike hlike' ih

/-- Without characters that only LIKE takes for wildcards, the wildcards stand in the same places. -/
theorem matches_glob_of_like (hrun : '%' ∉ pattern) (hone : '_' ∉ pattern)
    (h : likeWildcards.Matches (pattern.map likeChar) text) :
    globWildcards.Matches pattern text := by
  induction pattern generalizing text with
  | nil =>
    cases h
    exact .done
  | cons c rest ih =>
    simp only [List.mem_cons, not_or] at hrun hone
    rw [List.map_cons] at h
    by_cases hstar : c = '*'
    · subst hstar
      obtain ⟨skipped, rest, rfl, hr⟩ := h.run_inv rfl
      exact .run skipped (ih hrun.2 hone.2 hr)
    · by_cases hmark : c = '?'
      · subst hmark
        obtain ⟨d, rest, rfl, hr⟩ := h.one_inv rfl (by decide)
        exact .one d (ih hrun.2 hone.2 hr)
      · rw [likeChar_self hstar hmark] at h
        obtain ⟨rest, rfl, hr⟩ := h.self_inv (Ne.symm hrun.1) (Ne.symm hone.1)
        exact .self hstar hmark (ih hrun.2 hone.2 hr)

/-- A character that LIKE takes for a wildcard stands for itself in a glob, so a text without it tells the
two patterns apart. -/
theorem exists_matches_like_only (h : '%' ∈ pattern ∨ '_' ∈ pattern) :
    ∃ text, likeWildcards.Matches (pattern.map likeChar) text ∧
      ¬globWildcards.Matches pattern text := by
  refine ⟨likeWildcards.plainText (pattern.map likeChar), matches_plainText _ _, fun hm => ?_⟩
  rcases h with h | h
  · exact not_mem_plainText (by decide) (Or.inl rfl) _ (hm.mem h (by decide) (by decide))
  · exact not_mem_plainText (by decide) (Or.inr rfl) _ (hm.mem h (by decide) (by decide))

/-- The LIKE pattern of a glob without percent signs and underscores matches the same texts. That of any
other glob matches a text that the glob does not match. -/
theorem likeOfGlob_matches (pattern : String) :
    ('%' ∉ pattern.toList ∧ '_' ∉ pattern.toList →
      ∀ text : String, globWildcards.Matches pattern.toList text.toList ↔
        likeWildcards.Matches (likeOfGlob pattern).toList text.toList) ∧
    ('%' ∈ pattern.toList ∨ '_' ∈ pattern.toList →
      ∃ text : String, likeWildcards.Matches (likeOfGlob pattern).toList text.toList ∧
        ¬globWildcards.Matches pattern.toList text.toList) := by
  have hlike : (likeOfGlob pattern).toList = pattern.toList.map likeChar := String.toList_ofList
  rw [hlike]
  constructor
  · rintro ⟨hrun, hone⟩ text
    exact ⟨matches_like_of_glob, matches_glob_of_like hrun hone⟩
  · intro h
    obtain ⟨text, ht, hn⟩ := exists_matches_like_only h
    exact ⟨String.ofList text, by rwa [String.toList_ofList], by rwa [String.toList_ofList]⟩

end Offload
