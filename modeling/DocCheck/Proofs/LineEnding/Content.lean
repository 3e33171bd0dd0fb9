import DocCheck.Proofs.LineEnding.Text
import DocCheck.Proofs.Rule.Copyright
import DocCheck.Rule.Author
import DocCheck.Rule.PackageName

/-!
# Line ends in the content of tags

Whether a package name, an author or a copyright is well formed does not depend on how its line
ends are written: none of them may hold a line end where it matters.
-/

namespace DocCheck

open Text

section PackageName

/-- A character with a greater number is no line feed. -/
theorem ofNat_ne_newline {n : Nat} (h : 10 < n) : Char.ofNat n ≠ '\n' := by
  intro heq
  have hcode := congrArg Char.toNat heq
  by_cases hvalid : n.isValidChar
  · rw [Char.ofNat, dif_pos hvalid] at hcode
    change n = 10 at hcode
    omega
  · rw [Char.ofNat, dif_neg hvalid] at hcode
    change 0 = 10 at hcode
    omega

/-- No upper-case form has a line feed, except that of the line feed itself. -/
theorem not_mem_uppercase {c : Char} (hc : c ≠ '\n') : '\n' ∉ uppercase c := by
  have hascii : ∀ n < 0x80, (Char.ofNat n).toUpper = '\n' → Char.ofNat n = '\n' := by decide
  have hexpansions : ∀ e ∈ uppercaseExpansions, '\n' ∉ e.2.toList := by decide +kernel
  have hruns : ∀ r ∈ uppercaseRuns, 10 < (r.first : Int) + r.shift := by decide +kernel
  unfold uppercase uppercaseWide
  split
  · next hcode =>
    intro hmem
    have hupper := (List.mem_singleton.mp hmem).symm
    rw [← Char.ofNat_toNat c] at hupper
    exact hc (Char.ofNat_toNat c ▸ hascii c.toNat hcode hupper)
  · split
    · next form hform => exact hexpansions _ (List.mem_of_find?_eq_some hform)
    · split
      · next run hrun =>
        have hshift := hruns run (List.mem_of_find?_eq_some hrun)
        have hcontains := List.find?_some hrun
        simp only [CodeRun.contains, Bool.and_eq_true, decide_eq_true_eq] at hcontains
        intro hmem
        exact ofNat_ne_newline (by omega) (List.mem_singleton.mp hmem).symm
      · simpa using hc.symm

/-- A word may be capitalised before or after its line ends are replaced. -/
theorem capitalize_crlf (word : Text) : capitalize word.crlf = (capitalize word).crlf := by
  cases word with
  | nil => rfl
  | cons c word =>
    by_cases hc : c = '\n'
    · rw [hc, crlf_newline]
      exact (crlf_newline word).symm
    · rw [crlf_cons hc, capitalize, capitalize, crlf_append,
        crlf_eq_self (not_mem_uppercase hc)]

/-- A package name is recognised under both line ends. -/
theorem isUnderscoreName_crlf (name : Text) :
    isUnderscoreName name.crlf = isUnderscoreName name := by
  have hspace : name.crlf.elem ' ' = name.elem ' ' := by
    rw [Bool.eq_iff_iff, List.elem_iff, List.elem_iff, mem_crlf (by decide)]
  have hlower : isLowercase '\r' = isLowercase '\n' := by decide
  have hupper : Char.isUpper '\r' = Char.isUpper '\n' := by decide
  simp only [isUnderscoreName, hspace, head?_any_crlf hupper,
    splitOn_crlf (m := "_") (by decide) (by decide) (by decide), List.all_map,
    Function.comp_def, head?_any_crlf hlower]

/-- The suggestion keeps the line ends of the name. -/
theorem suggestUnderscoreName_crlf (name : Text) :
    suggestUnderscoreName name.crlf = (suggestUnderscoreName name).crlf := by
  have htrim (t : Text) : trimUnderscores t.crlf = (trimUnderscores t).crlf := by
    have hp : ('\r' == '_') = ('\n' == '_') := rfl
    rw [trimUnderscores, dropWhile_crlf (p := (· == '_')) hp]
    exact rdropWhile_crlf (p := (· == '_')) hp _
  have hspaced : name.crlf.map (fun c => if c = ' ' then '_' else c) =
      Text.crlf (name.map fun c => if c = ' ' then '_' else c) := by
    refine map_crlf rfl (fun c => ?_) name
    split
    · next hc => simp [hc]
    · rfl
  have hjoin : Text.crlf "_" = "_" := crlf_eq_self (by decide)
  simp only [suggestUnderscoreName, hspaced,
    splitOn_crlf (m := "_") (by decide) (by decide) (by decide), List.map_map]
  rw [← htrim, crlf_join, hjoin, List.map_map]
  congr 2
  exact List.map_congr_left fun word _ => capitalize_crlf word

end PackageName

namespace Author

private theorem not_mem_of_all {p : Char → Bool} (hp : p '\n' = false) {t : Text} (h : t.all p) :
    '\n' ∉ t := by
  intro hmem
  have := List.all_eq_true.mp h _ hmem
  rw [hp] at this
  cases this

/-- A host lies on one line. -/
theorem not_mem_of_isHost {t : Text} (h : isHost t) : '\n' ∉ t := by
  unfold isHost at h
  rw [Bool.and_eq_true] at h
  obtain ⟨htop, hdomain⟩ := h
  split at hdomain
  · next domain hdrop =>
    have hsplit : t.reverse = t.reverse.takeWhile (· != '.') ++ '.' :: domain := by
      rw [← hdrop, List.takeWhile_append_dropWhile]
    simp only [isTopLevel, Bool.and_eq_true, List.all_reverse] at htop
    simp only [isDomain, Bool.and_eq_true, List.all_reverse] at hdomain
    rw [← List.mem_reverse, hsplit, List.mem_append, List.mem_cons, not_or, not_or]
    exact ⟨not_mem_of_all (by decide) htop.2, by decide, not_mem_of_all (by decide) hdomain.2⟩
  · cases hdomain

/-- An address is written on one line. -/
theorem not_mem_of_isAddress {t : Text} (h : isAddress t) : '\n' ∉ t := by
  unfold isAddress at h
  rw [Bool.and_eq_true] at h
  obtain ⟨hlocal, hhost⟩ := h
  split at hhost
  · next host hdrop =>
    have hsplit : t = t.takeWhile (· != '@') ++ '@' :: host := by
      rw [← hdrop, List.takeWhile_append_dropWhile]
    simp only [isLocal, Bool.and_eq_true] at hlocal
    rw [hsplit, List.mem_append, List.mem_cons, not_or, not_or]
    exact ⟨not_mem_of_all (by decide) hlocal.2, by decide, not_mem_of_isHost hhost⟩
  · cases hhost

/-- A mail address is recognised under both line ends. -/
theorem isAddress_crlf (t : Text) : isAddress t.crlf = isAddress t := by
  by_cases hn : '\n' ∈ t
  · have hleft : isAddress t.crlf = false := by
      rw [Bool.eq_false_iff]
      exact fun h => not_mem_of_isAddress h ((mem_crlf (by decide)).mpr hn)
    have hright : isAddress t = false := by
      rw [Bool.eq_false_iff]
      exact fun h => not_mem_of_isAddress h hn
    rw [hleft, hright]
  · rw [crlf_eq_self hn]

/-- Authors are accepted alike. -/
theorem accepts_crlf (t : Text) : accepts t.crlf = accepts t := by
  have hclosed (rest : Text) :
      (rest.crlf.getLast? == some '>' && isAddress rest.crlf.dropLast) =
        (rest.getLast? == some '>' && isAddress rest.dropLast) := by
    induction rest using List.reverseRecOn with
    | nil => rfl
    | append_singleton rest x _ =>
      rw [getLast?_crlf, crlf_append]
      by_cases hx : x = '\n'
      · simp [hx]
      · rw [crlf_cons hx, crlf_nil, List.dropLast_concat, List.dropLast_concat, isAddress_crlf]
  -- The text is cut at the first `<`, which a line end neither is nor hides.
  unfold accepts
  rw [takeWhile_crlf (p := (· != '<')) rfl, dropWhile_crlf (p := (· != '<')) rfl, getLast?_crlf]
  congr 1
  cases t.dropWhile (· != '<') with
  | nil => rfl
  | cons c rest =>
    by_cases hn : c = '\n'
    · rw [hn, crlf_newline]
      rfl
    · by_cases hopen : c = '<'
      · rw [hopen, crlf_cons (by decide)]
        exact hclosed rest
      · rw [crlf_cons hn]
        split
        · next heq => exact absurd (List.cons.inj heq).1 hopen
        · split
          · next heq => exact absurd (List.cons.inj heq).1 hopen
          · rfl

end Author

namespace CopyrightYears

/-- The digits of a year are read alike. -/
theorem year?_crlf (t : Text) : year? t.crlf = (year? t).map fun (y, rest) => (y, rest.crlf) := by
  ext ⟨y, rest⟩
  rw [Option.map_eq_some_iff, year?_eq_some_iff]
  constructor
  · rintro ⟨htext, hlength, hdigits⟩
    have hr : '\r' ∉ y := fun h => absurd (hdigits _ h) (by decide)
    have hn : '\n' ∉ y := fun h => absurd (hdigits _ h) (by decide)
    have hafter := after?_crlf hr hn t
    rw [after?_eq_some_iff.mpr htext] at hafter
    obtain ⟨rest', hrest', rfl⟩ := Option.map_eq_some_iff.mp hafter.symm
    exact ⟨(y, rest'), year?_eq_some_iff.mpr ⟨after?_eq_some_iff.mp hrest', hlength, hdigits⟩, rfl⟩
  · rintro ⟨⟨y', rest'⟩, hyear, heq⟩
    obtain ⟨rfl, hlength, hdigits⟩ := year?_eq_some_iff.mp hyear
    obtain ⟨rfl, rfl⟩ := Prod.mk.inj heq
    have hn : '\n' ∉ y' := fun h => absurd (hdigits _ h) (by decide)
    exact ⟨by rw [crlf_append, crlf_eq_self hn], hlength, hdigits⟩

/-- The holder of a copyright is recognised under both line ends. -/
theorem isHolder_crlf (t : Text) : isHolder t.crlf = isHolder t := by
  cases t with
  | nil => rfl
  | cons c holder =>
    by_cases hn : c = '\n'
    · rw [hn, crlf_newline]
      rfl
    · rw [crlf_cons hn]
      by_cases hspace : c = ' '
      · have hfeed : (Text.crlf holder).elem '\n' = holder.elem '\n' := by
          rw [Bool.eq_iff_iff, List.elem_iff, List.elem_iff, mem_crlf (by decide)]
        rw [hspace, isHolder, isHolder, crlf_isEmpty, hfeed]
      · unfold isHolder
        split
        · next heq => exact absurd (List.cons.inj heq).1 hspace
        · split
          · next heq => exact absurd (List.cons.inj heq).1 hspace
          · rfl

/-- The second year of a span is read alike. -/
theorem spanEnd?_crlf (t : Text) : spanEnd? t.crlf = spanEnd? t := by
  cases t with
  | nil => rfl
  | cons separator t =>
    by_cases hn : separator = '\n'
    · -- Behind the carriage return stands a line feed, which starts no year.
      have hnone : year? ('\n' :: Text.crlf t) = none := by
        unfold year?
        simp
      rw [hn, crlf_newline, spanEnd?, hnone, spanEnd?]
      cases year? t with
      | none => rfl
      | some found => rfl
    · rw [crlf_cons hn, spanEnd?, year?_crlf, spanEnd?]
      cases year? t with
      | none => rfl
      | some found => simp only [Option.map_some, isHolder_crlf]

/-- The years of a copyright are read alike. -/
theorem ofText?_crlf (t : Text) : ofText? t.crlf = ofText? t := by
  have hfirst : (t.crlf.after? "Copyright (C) ").bind year? =
      ((t.after? "Copyright (C) ").bind year?).map fun (y, rest) => (y, rest.crlf) := by
    rw [after?_crlf (by decide) (by decide), Option.bind_map, Option.map_bind]
    congr 1
    funext rest
    exact year?_crlf rest
  unfold ofText?
  rw [hfirst]
  cases (t.after? "Copyright (C) ").bind year? with
  | none => rfl
  | some found => simp only [Option.map_some, spanEnd?_crlf, isHolder_crlf]

/-- A span of years is written on one line. -/
theorem not_mem_of_ofText? {t first last : Text} {separator : Char}
    (h : ofText? t = some (.span first separator last)) :
    '\n' ∉ first ++ separator :: last := by
  have hdigit : Char.isDigit '\n' ≠ true := by decide
  obtain ⟨holder, hform⟩ := ofText?_eq_span_iff.mp h
  have hfirst := (isYear_iff.mp hform.isYear_first).2
  have hlast := (isYear_iff.mp hform.isYear_last).2
  rw [List.mem_append, List.mem_cons, not_or, not_or]
  exact ⟨fun hmem => hdigit (hfirst _ hmem), hform.separator_ne.symm,
    fun hmem => hdigit (hlast _ hmem)⟩

end CopyrightYears

end DocCheck
