import DocCheck.Proofs.Sink
import DocCheck.Proofs.Stream.Search

/-!
# Every anchor is examined once

A check goes from one anchor to the next and starts each search right behind the last find, so it
comes to every anchor once and in order. For file comments only the first open tag counts: at every
later one the comment is not applicable, because an open tag stands in front of it.
-/

namespace DocCheck

namespace Stream

variable {s : Stream}

/-- The first search of a stream is a search in the list of its tokens. -/
theorem next?_zero (s : Stream) (want : Kind → Bool) :
    s.next? want 0 = s.tokens.findIdx? (want ·.kind) := by
  have hwhole : s.slice 0 s.size = s.tokens := List.take_length
  simp only [next?, first?, hwhole, Nat.zero_add, Option.map_id_fun', id_eq]

/-- An open tag behind another one carries no file comment. -/
theorem fileBlock_of_openTag_before {first p : Nat} (hfirst : s.kindAt? first = some .openTag)
    (hlt : first < p) (marker : Text) : s.fileBlock p marker = .notApplicable := by
  have hbefore : s.previous? (· = .openTag) p ≠ none := by
    intro hnone
    have hother := previous?_eq_none_iff.mp hnone first hlt
    rw [hfirst] at hother
    cases hother
  rw [fileBlock, if_pos (Option.isSome_iff_ne_none.mpr hbefore)]

/-- Positions are counted on from the start of the search. -/
theorem le_of_mem_positionsFrom {want : Kind → Bool} {start p : Nat}
    (h : p ∈ s.positionsFrom want start) : start ≤ p := by
  rw [positionsFrom_eq_filter] at h
  exact (List.mem_range'_1.mp (List.mem_filter.mp h).1).1

/-- The positions are the first find and those that are found behind it. -/
theorem positionsFrom_eq (s : Stream) (want : Kind → Bool) (start : Nat) :
    s.positionsFrom want start =
      match s.next? want start with
      | none => []
      | some i => i :: s.positionsFrom want (i + 1) := by
  rw [positionsFrom]
  split
  · next hnone => simp only [hnone]
  · next i hsome => simp only [hsome]

end Stream

/-- The check of file comments finds the issues at the first open tag and no others. -/
theorem Check.run_fileComment (cfg : Settings) (s : Stream) :
    Check.fileComment.run cfg s =
      match s.tokens.findIdx? (·.kind = .openTag) with
      | none => []
      | some p => fileIssues cfg s p := by
  rw [← Stream.next?_zero s (· = .openTag), Check.run_fileComment_eq, Stream.positions,
    Stream.positionsFrom_eq]
  cases hfirst : s.next? (· = .openTag) 0 with
  | none => rfl
  | some p =>
    have hkind : s.kindAt? p = some .openTag := by
      obtain ⟨k, hk, hopen⟩ := (Option.any_eq_true _ _).mp (Stream.next?_eq_some_iff.mp hfirst).2.1
      rw [hk, of_decide_eq_true hopen]
    have hlater : (s.positionsFrom (· = .openTag) (p + 1)).flatMap (fileIssues cfg s) = [] := by
      refine List.flatMap_eq_nil_iff.mpr fun later hmem => ?_
      have hlt : p < later := Stream.le_of_mem_positionsFrom hmem
      rw [fileIssues, Stream.fileBlock_of_openTag_before hkind hlt]
    dsimp only
    rw [List.flatMap_cons, hlater, List.append_nil]

/-- The check of file comments examines the first open tag, and the check of declarations every
class-like keyword, from the first to the last. Of several checks, whatever they are, each finds
what it finds alone, and together they find that check by check in their order. -/
theorem Check.run_visits_anchors (cfg : Settings) (s : Stream) (checks : List Check) :
    (Check.fileComment.run cfg s =
      match s.tokens.findIdx? (·.kind = .openTag) with
      | none => []
      | some p => fileIssues cfg s p) ∧
    Check.classComment.run cfg s =
      ((List.range s.size).filter fun c => (s.kindAt? c).any (·.isClassLike)).flatMap
        (classIssues cfg s) ∧
    (∀ i : Nat, (Check.runEach checks cfg s)[i]? =
      checks[i]?.map fun check => (check.name, check.run cfg s)) ∧
    Check.runAll checks cfg s = (Check.runEach checks cfg s).flatMap (·.2) := by
  refine ⟨Check.run_fileComment cfg s, ?_, fun i => List.getElem?_map .., ?_⟩
  · rw [Check.run_classComment_eq, Stream.positions_eq_filter]
  · rw [Check.runAll_eq_flatMap, Check.runEach, List.flatMap_map]

end DocCheck
