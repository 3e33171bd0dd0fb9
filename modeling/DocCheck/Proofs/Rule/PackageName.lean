import DocCheck.Proofs.Text.Split
import DocCheck.Rule.PackageName

/-!
# The grammar of package names

The recogniser cuts a package name into words and tests the start of each. The grammar speaks of
the characters of the name alone: a word starts where the name starts and behind every underscore.
-/

namespace DocCheck

/-- A package name as it is written: no space, an ASCII capital first, and no lower-case character
behind an underscore. -/
structure IsPackageName (name : Text) : Prop where
  noSpace : ' ' ∉ name
  capital : ∃ c rest, name = c :: rest ∧ c.isUpper
  noLowercase : ∀ front c rest, name = front ++ '_' :: c :: rest → isLowercase c = false

/-- A word that is not the first one starts behind an underscore. -/
theorem exists_underscore_of_mem_tail {t w : Text} {c : Char}
    (hw : w ∈ (t.splitOn "_").tail) (hc : c ∈ w.head?) :
    ∃ front rest, t = front ++ '_' :: c :: rest := by
  have hsep : ("_" : Text) ≠ [] := by decide
  induction t using Text.splitOn_induction hsep with
  | nil =>
    rw [Text.splitOn_nil hsep] at hw
    cases hw
  | found t ih =>
    rw [Text.splitOn_sep_append hsep, List.tail_cons] at hw
    obtain ⟨first, words, hsplit⟩ := List.exists_cons_of_ne_nil (Text.splitOn_ne_nil hsep t)
    rw [hsplit] at hw ih
    rcases List.mem_cons.mp hw with rfl | hw
    · obtain ⟨rest, rfl⟩ := Text.head?_splitOn_prefix hsep (t := t) (p := w) (by rw [hsplit]; rfl)
      obtain ⟨w', rfl⟩ := List.head?_eq_some_iff.mp hc
      exact ⟨[], w' ++ rest, rfl⟩
    · obtain ⟨front, rest, rfl⟩ := ih hw
      exact ⟨'_' :: front, rest, rfl⟩
  | other x t hx ih =>
    rw [Text.splitOn_cons hsep hx, List.tail_modifyHead] at hw
    obtain ⟨front, rest, rfl⟩ := ih hw
    exact ⟨x :: front, rest, rfl⟩

/-- A character behind an underscore starts a word, unless it is an underscore itself. -/
theorem exists_word_of_underscore (front rest : Text) {c : Char} (hc : c ≠ '_') :
    ∃ w ∈ Text.splitOn (front ++ '_' :: c :: rest) "_", c ∈ w.head? := by
  have hsep : Text.HeadUnique "_" := ⟨'_', [], rfl, by simp⟩
  have hprefix : ¬ ("_" : Text) <+: c :: rest := by
    intro h
    exact hc (List.cons_prefix_cons.mp h).1.symm
  obtain ⟨first, words, hsplit⟩ := List.exists_cons_of_ne_nil (Text.splitOn_ne_nil hsep.ne_nil rest)
  refine ⟨c :: first, ?_, rfl⟩
  have happend := Text.splitOn_append_sep hsep front (c :: rest)
  rw [Text.splitOn_cons hsep.ne_nil hprefix, hsplit] at happend
  exact (congrArg (c :: first ∈ ·) happend).mpr (by simp)

/-- A capital is not in lower case. -/
theorem isLowercase_of_isUpper {c : Char} (h : c.isUpper) : isLowercase c = false := by
  have hupper : 65 ≤ c.toNat ∧ c.toNat ≤ 90 := of_decide_eq_true h
  have hlower : ¬ c.isLower := by
    intro hlower
    have hlow : 97 ≤ c.toNat := of_decide_eq_true (Bool.and_eq_true_iff.mp hlower).1
    omega
  rw [isLowercase, if_pos (by omega), Bool.eq_false_iff.mpr hlower]

/-- A name is recognised exactly when it is written like a package name. -/
theorem isUnderscoreName_iff {name : Text} : isUnderscoreName name ↔ IsPackageName name := by
  simp only [isUnderscoreName, Bool.and_eq_true, Bool.not_eq_true', List.all_eq_true]
  constructor
  · rintro ⟨⟨hspace, hcapital⟩, hwords⟩
    obtain ⟨c, hc, hupper⟩ := (Option.any_eq_true _ _).mp hcapital
    obtain ⟨rest, rfl⟩ := List.head?_eq_some_iff.mp hc
    refine ⟨by simpa using hspace, ⟨c, rest, rfl, hupper⟩, fun front c rest heq => ?_⟩
    by_cases hc : c = '_'
    · rw [hc]
      decide
    · obtain ⟨w, hw, hhead⟩ := exists_word_of_underscore front rest hc
      have := hwords w (heq ▸ hw)
      rwa [hhead] at this
  · rintro ⟨hspace, ⟨c, rest, rfl, hupper⟩, hlowercase⟩
    have hsep : ("_" : Text) ≠ [] := by decide
    refine ⟨⟨by simpa using hspace, hupper⟩, fun w hw => ?_⟩
    cases hhead : w.head? with
    | none => rfl
    | some x =>
      rw [Option.any_some]
      obtain ⟨first, words, hsplit⟩ :=
        List.exists_cons_of_ne_nil (Text.splitOn_ne_nil hsep (c :: rest))
      rw [hsplit] at hw
      rcases List.mem_cons.mp hw with rfl | hw
      · obtain ⟨w', rfl⟩ := List.head?_eq_some_iff.mp hhead
        have hprefix : x :: w' <+: c :: rest :=
          Text.head?_splitOn_prefix hsep (by rw [hsplit]; rfl)
        rw [(List.cons_prefix_cons.mp hprefix).1]
        exact isLowercase_of_isUpper hupper
      · obtain ⟨front, rest', heq⟩ := exists_underscore_of_mem_tail (by rwa [hsplit]) hhead
        exact hlowercase front x rest' heq

end DocCheck
