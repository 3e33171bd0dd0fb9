import DocCheck.Proofs.Comment.Order
import DocCheck.Proofs.Rule.BuiltIn

/-!
# Tags without an issue

A tag has no issue when it is there if it must be, when its occurrences are not too many and stand
together, and when none of them has an issue of its own. Occurrences stand together when the names
of all tags are grouped: the places of each name are then consecutive.
-/

namespace DocCheck

/-- Equal names stand together: no other name comes between two of them. -/
def Grouped (names : List Text) : Prop :=
  ∀ x ∈ names, ∀ y ∈ names, [x, y, x].Sublist names → y = x
  deriving Decidable

/-- Tags stay grouped when some are left out. -/
theorem Grouped.sublist {xs ys : List Text} (h : Grouped ys) (hsub : xs.Sublist ys) : Grouped xs :=
  fun x hx y hy hxy => h x (hsub.subset hx) y (hsub.subset hy) (hxy.trans hsub)

/-- A name that is not there has no places. -/
theorem placesFrom_of_not_mem {name : Text} {names : List Text} (h : name ∉ names) (place : Nat) :
    placesFrom place name names = [] := by
  induction names generalizing place with
  | nil => rfl
  | cons n names ih =>
    rw [List.mem_cons, not_or] at h
    rw [placesFrom_cons_of_ne place (Ne.symm h.1), ih h.2]

/-- Behind a name, the further places of the same name follow at once. -/
theorem Grouped.exists_places_behind {name : Text} {names : List Text}
    (h : Grouped (name :: names)) (place : Nat) :
    ∃ n, placesFrom place name names = List.range' place n := by
  induction names generalizing place with
  | nil => exact ⟨0, rfl⟩
  | cons x names ih =>
    by_cases hx : x = name
    · subst hx
      obtain ⟨n, hn⟩ := ih (h.sublist (List.sublist_cons_self _ _)) (place + 1)
      exact ⟨n + 1, by rw [placesFrom_cons_self, hn, List.range'_succ]⟩
    · -- The name cannot come back behind another one.
      have hnot : name ∉ x :: names := by
        intro hmem
        rcases List.mem_cons.mp hmem with rfl | hmem
        · exact hx rfl
        · refine hx (h name List.mem_cons_self x (by simp) ?_)
          exact ((List.singleton_sublist.mpr hmem).cons_cons x).cons_cons name
      exact ⟨0, placesFrom_of_not_mem hnot place⟩

/-- In a grouped list of names the places of each name are consecutive. -/
theorem Grouped.exists_places {names : List Text} (h : Grouped names) (place : Nat) (name : Text) :
    ∃ start n, placesFrom place name names = List.range' start n := by
  induction names generalizing place with
  | nil => exact ⟨0, 0, rfl⟩
  | cons x names ih =>
    by_cases hx : x = name
    · subst hx
      obtain ⟨n, hn⟩ := h.exists_places_behind (place + 1)
      exact ⟨place, n + 1, by rw [placesFrom_cons_self, hn, List.range'_succ]⟩
    · rw [placesFrom_cons_of_ne place hx]
      exact ih (h.sublist (List.sublist_cons_self _ _)) (place + 1)

namespace Comment

variable {c : Comment} {s : Scope} {g : Grammar}

/-- No occurrence is out of place when the places are consecutive. -/
theorem firstStray?_range' (os : List Occurrence) (start n : Nat) :
    firstStray? start (os.zip (List.range' start n)) = none := by
  induction n generalizing os start with
  | zero => rw [List.range'_zero, List.zip_nil_right, firstStray?]
  | succ n ih =>
    cases os with
    | nil => rfl
    | cons o os =>
      rw [List.range'_succ, List.zip_cons_cons, firstStray?, if_pos rfl]
      exact ih os (start + 1)

/-- A tag occurs as often as its name among the tags. -/
theorem length_occurrences (c : Comment) (name : Text) :
    (c.occurrences name).length = (c.tags.map (·.name)).count name := by
  rw [occurrences, ← List.countP_eq_length_filter, List.count, List.countP_map]
  exact List.countP_congr fun o _ => by simp

/-- A tag that is not repeated against its grammar has no issue with its number and grouping when
the names of all tags are grouped, unless it has the name of the description entry. -/
theorem checkRepetition_eq_nil {names : List Text} (horder : c.order = descriptionEntry :: names)
    (hgrouped : Grouped names) (hentry : g.name ≠ descriptionEntry)
    (honce : g.repeatable = false → (c.occurrences g.name).length ≤ 1) :
    c.checkRepetition s g = [] := by
  unfold checkRepetition
  dsimp only
  split
  · rfl
  · next hmany =>
    have hrepeatable : g.repeatable = true := by
      by_contra hnot
      exact hmany (honce (Bool.eq_false_iff.mpr hnot))
    obtain ⟨start, n, hplaces⟩ := hgrouped.exists_places 1 g.name
    have hindexes : c.indexes g.name = List.range' start n := by
      rw [indexes_eq_placesFrom, horder, placesFrom_cons_of_ne 0 (Ne.symm hentry), hplaces]
    rw [if_pos hrepeatable, hindexes]
    cases n with
    | zero => simp [firstStray?]
    | succ n =>
      rw [List.range'_succ, List.headD_cons, ← List.range'_succ, firstStray?_range']
      rfl

/-- A tag without an issue. -/
theorem checkTag_eq_nil (hpresent : g.requirement = .required → c.occurrences g.name ≠ [])
    (hrepetition : c.checkRepetition s g = [])
    (hrule : g.contentRule.IsBuiltIn)
    (hcontent : ∀ o ∈ c.occurrences g.name, g.contentRule.check s [o] = []) :
    c.checkTag s g = [] := by
  unfold checkTag
  dsimp only
  split
  · next hempty =>
    refine if_neg fun hrequired => ?_
    exact hpresent hrequired (List.isEmpty_iff.mp hempty)
  · rw [hrepetition, hrule.check_eq_nil hcontent, List.nil_append]

end Comment

end DocCheck
