import DocCheck.Proofs.Text.Split
import DocCheck.Rule.Content

/-!
# The grammar of copyrights

A copyright names a year or a span of years and a holder. A holder that starts with four digits and
a space makes a span of a single year, with a space for its separator. Years are compared as texts,
which for four digits is the same as comparing numbers. What the rule reports on a content follows
from its form, and the span it suggests for years in descending order has no issue.
-/

namespace DocCheck

namespace CopyrightYears

/-- Four digits. -/
def IsYear (t : Text) : Prop := t.length = 4 ∧ t.all Char.isDigit
  deriving Decidable

/-- A year is four digits. -/
theorem isYear_iff {t : Text} : IsYear t ↔ t.length = 4 ∧ ∀ c ∈ t, c.isDigit := by
  rw [IsYear, List.all_eq_true]

/-- A year is four digits in front of the rest. -/
theorem year?_eq_some_iff {t y rest : Text} :
    year? t = some (y, rest) ↔ t = y ++ rest ∧ y.length = 4 ∧ ∀ c ∈ y, c.isDigit := by
  unfold year?
  rw [Option.ite_none_right_eq_some, Option.some.injEq, Prod.mk.injEq, Bool.and_eq_true,
    decide_eq_true_eq, List.all_eq_true]
  constructor
  · rintro ⟨⟨hlength, hdigits⟩, rfl, rfl⟩
    exact ⟨(List.take_append_drop 4 t).symm, hlength, hdigits⟩
  · rintro ⟨rfl, hlength, hdigits⟩
    rw [List.take_left' hlength, List.drop_left' hlength]
    exact ⟨⟨hlength, hdigits⟩, rfl, rfl⟩

/-- A year at the start of a text is read. -/
theorem IsYear.year?_append {y : Text} (h : IsYear y) (rest : Text) :
    year? (y ++ rest) = some (y, rest) := year?_eq_some_iff.mpr ⟨rfl, isYear_iff.mp h⟩

/-- The number that digits stand for. -/
def number (digits : Text) : Nat := digits.foldl (fun n c => 10 * n + (c.toNat - '0'.toNat)) 0

/-- Digits of one length are compared from the left, as numbers and as texts. -/
theorem foldl_lt_foldl_iff {a b : Text} (hlength : a.length = b.length) (ha : ∀ c ∈ a, c.isDigit)
    (hb : ∀ c ∈ b, c.isDigit) (n m : Nat) :
    a.foldl (fun n c => 10 * n + (c.toNat - '0'.toNat)) n <
        b.foldl (fun n c => 10 * n + (c.toNat - '0'.toNat)) m ↔ n < m ∨ n = m ∧ a < b := by
  induction a generalizing b n m with
  | nil =>
    obtain rfl := List.length_eq_zero_iff.mp hlength.symm
    simp
  | cons x a ih =>
    cases b with
    | nil => cases hlength
    | cons y b =>
      have hx := Char.isDigit_iff_toNat.mp (ha x List.mem_cons_self)
      have hy := Char.isDigit_iff_toNat.mp (hb y List.mem_cons_self)
      have hspan : '9'.toNat = '0'.toNat + 9 := rfl
      rw [List.foldl_cons, List.foldl_cons, ih (Nat.succ.inj hlength)
        (fun c hc => ha c (List.mem_cons_of_mem _ hc))
        (fun c hc => hb c (List.mem_cons_of_mem _ hc)), List.cons_lt_cons_iff]
      have hlt : x < y ↔ x.toNat < y.toNat := Iff.rfl
      have heq : x = y ↔ x.toNat = y.toNat := Char.toNat_inj.symm
      rw [hlt, heq]
      by_cases hab : a < b
      · simp only [hab, and_true]
        omega
      · simp only [hab, and_false, or_false]
        omega

/-- Years are compared as numbers. -/
theorem lt_iff_number_lt {y z : Text} (hy : IsYear y) (hz : IsYear z) :
    y < z ↔ number y < number z := by
  rw [number, number, foldl_lt_foldl_iff (hy.1.trans hz.1.symm) (isYear_iff.mp hy).2
    (isYear_iff.mp hz).2]
  simp

/-- A holder is some text on one line, behind a space. -/
theorem isHolder_iff {t : Text} :
    isHolder t ↔ ∃ holder, t = ' ' :: holder ∧ holder ≠ [] ∧ '\n' ∉ holder := by
  unfold isHolder
  split
  · simp
  · next hspace => exact ⟨fun h => (by cases h), fun ⟨holder, ht, _⟩ => absurd ht (hspace holder)⟩

/-- A holder is a text on one line behind a space. -/
theorem isHolder_cons {holder : Text} (hne : holder ≠ []) (hline : '\n' ∉ holder) :
    isHolder (' ' :: holder) := isHolder_iff.mpr ⟨holder, rfl, hne, hline⟩

/-- The first year of a copyright. -/
theorem bind_year?_eq_some_iff {c first rest : Text} :
    (c.after? "Copyright (C) ").bind year? = some (first, rest) ↔
      c = "Copyright (C) " ++ (first ++ rest) ∧ IsYear first := by
  simp only [Option.bind_eq_some_iff, Text.after?_eq_some_iff, year?_eq_some_iff, isYear_iff]
  constructor
  · rintro ⟨_, rfl, rfl, hyear⟩
    exact ⟨rfl, hyear⟩
  · rintro ⟨rfl, hyear⟩
    exact ⟨_, rfl, rfl, hyear⟩

/-- The first year is read behind the words of a copyright. -/
theorem IsYear.bind_year?_append {year : Text} (h : IsYear year) (rest : Text) :
    (Text.after? ("Copyright (C) " ++ (year ++ rest)) "Copyright (C) ").bind year? =
      some (year, rest) := bind_year?_eq_some_iff.mpr ⟨rfl, h⟩

/-- The end of a span is a separator, a year and a holder. -/
theorem spanEnd?_eq_some_iff {t last : Text} {separator : Char} :
    spanEnd? t = some (separator, last) ↔ ∃ holder, t = separator :: (last ++ ' ' :: holder) ∧
      IsYear last ∧ separator ≠ '\n' ∧ holder ≠ [] ∧ '\n' ∉ holder := by
  constructor
  · intro h
    cases t with
    | nil => cases h
    | cons c t =>
      rw [spanEnd?] at h
      split at h
      · next year rest hyear =>
        simp only [Option.ite_none_right_eq_some, Bool.and_eq_true, decide_eq_true_eq,
          Option.some.injEq, Prod.mk.injEq] at h
        obtain ⟨⟨hseparator, hholder⟩, rfl, rfl⟩ := h
        obtain ⟨rfl, hdigits⟩ := year?_eq_some_iff.mp hyear
        obtain ⟨holder, rfl, hne, hline⟩ := isHolder_iff.mp hholder
        exact ⟨holder, rfl, isYear_iff.mpr hdigits, hseparator, hne, hline⟩
      · cases h
  · rintro ⟨holder, rfl, hlast, hseparator, hne, hline⟩
    simp [spanEnd?, hlast.year?_append, hseparator, isHolder_cons hne hline]

/-- A text that has the form of a span of years is one. -/
theorem ofText?_span {first last holder : Text} {separator : Char} (hfirst : IsYear first)
    (hlast : IsYear last) (hseparator : separator ≠ '\n') (hne : holder ≠ [])
    (hline : '\n' ∉ holder) :
    ofText? ("Copyright (C) " ++ (first ++ separator :: (last ++ ' ' :: holder))) =
      some (.span first separator last) := by
  have hend := spanEnd?_eq_some_iff.mpr ⟨holder, rfl, hlast, hseparator, hne, hline⟩
  simp only [ofText?, hfirst.bind_year?_append, hend]

/-- Whether a text starts with four digits and a space. -/
def StartsWithYear (t : Text) : Prop := ∃ year rest : Text, t = year ++ ' ' :: rest ∧ IsYear year

/-- A text that has the form of a single year is one, unless its holder starts with another year. -/
theorem ofText?_single {year holder : Text} (hyear : IsYear year) (hne : holder ≠ [])
    (hline : '\n' ∉ holder) (hstart : ¬ StartsWithYear holder) :
    ofText? ("Copyright (C) " ++ (year ++ ' ' :: holder)) = some .single := by
  have hend : spanEnd? (' ' :: holder) = none := by
    by_contra hsome
    obtain ⟨⟨separator, last⟩, hsome⟩ := Option.ne_none_iff_exists'.mp hsome
    obtain ⟨rest, heq, hlast, -⟩ := spanEnd?_eq_some_iff.mp hsome
    exact hstart ⟨last, rest, (List.cons.inj heq).2, hlast⟩
  simp only [ofText?, hyear.bind_year?_append, hend, isHolder_cons hne hline, if_true]

/-- A content with a span of years: the word with its sign, a year, a separator, a year, a space and
a holder. -/
structure IsSpanForm (c first : Text) (separator : Char) (last holder : Text) : Prop where
  text : c = "Copyright (C) " ++ (first ++ separator :: (last ++ ' ' :: holder))
  isYear_first : IsYear first
  isYear_last : IsYear last
  separator_ne : separator ≠ '\n'
  holder_ne : holder ≠ []
  not_mem_holder : '\n' ∉ holder

/-- A content with a single year: the word with its sign, a year, a space and a holder. -/
structure IsSingleForm (c year holder : Text) : Prop where
  text : c = "Copyright (C) " ++ (year ++ ' ' :: holder)
  isYear : IsYear year
  holder_ne : holder ≠ []
  not_mem_holder : '\n' ∉ holder

/-- The text is a copyright with two years. -/
def HasSpanForm (c : Text) : Prop :=
  ∃ first separator last holder, IsSpanForm c first separator last holder

/-- The text is a copyright with one year. -/
def HasSingleForm (c : Text) : Prop := ∃ year holder, IsSingleForm c year holder

/-- A span of years is read exactly where the content has the form of one. -/
theorem ofText?_eq_span_iff {c first last : Text} {separator : Char} :
    ofText? c = some (.span first separator last) ↔
      ∃ holder, IsSpanForm c first separator last holder := by
  constructor
  · intro h
    unfold ofText? at h
    split at h
    · cases h
    · next year rest hfirst =>
      obtain ⟨rfl, hyear⟩ := bind_year?_eq_some_iff.mp hfirst
      split at h
      · next sep year' hspan =>
        cases h
        obtain ⟨holder, rfl, hlast, hseparator, hne, hline⟩ := spanEnd?_eq_some_iff.mp hspan
        exact ⟨holder, rfl, hyear, hlast, hseparator, hne, hline⟩
      · split at h <;> cases h
  · rintro ⟨holder, h⟩
    rw [h.text, ofText?_span h.isYear_first h.isYear_last h.separator_ne h.holder_ne
      h.not_mem_holder]

/-- A single year is read only where the content has not the form of a span as well. -/
theorem ofText?_eq_single_iff {c : Text} :
    ofText? c = some .single ↔ ¬ HasSpanForm c ∧ HasSingleForm c := by
  constructor
  · intro h
    refine ⟨fun ⟨first, separator, last, holder, hspan⟩ => ?_, ?_⟩
    · rw [ofText?_eq_span_iff.mpr ⟨holder, hspan⟩] at h
      cases h
    · unfold ofText? at h
      split at h
      · cases h
      · next year rest hfirst =>
        obtain ⟨rfl, hyear⟩ := bind_year?_eq_some_iff.mp hfirst
        split at h
        · cases h
        · obtain ⟨hholder, -⟩ := Option.ite_none_right_eq_some.mp h
          obtain ⟨holder, rfl, hne, hline⟩ := isHolder_iff.mp hholder
          exact ⟨year, holder, rfl, hyear, hne, hline⟩
  · rintro ⟨hspan, year, holder, h⟩
    have hyear := bind_year?_eq_some_iff.mpr ⟨h.text, h.isYear⟩
    have hend : spanEnd? (' ' :: holder) = none := by
      by_contra hsome
      obtain ⟨⟨separator, last⟩, hsome⟩ := Option.ne_none_iff_exists'.mp hsome
      have hread : ofText? c = some (.span year separator last) := by
        simp only [ofText?, hyear, hsome]
      obtain ⟨holder', hform⟩ := ofText?_eq_span_iff.mp hread
      exact hspan ⟨year, separator, last, holder', hform⟩
    simp only [ofText?, hyear, hend, isHolder_cons h.holder_ne h.not_mem_holder, if_true]

end CopyrightYears

open CopyrightYears

/-- A copyright as it is written: a year or a span of ascending years with a hyphen, and a holder.
The holder behind a single year must not start with a year, or it is taken for the end of a span. -/
inductive IsCopyright : Text → Prop where
  | single (year holder : Text) (hyear : IsYear year) (hne : holder ≠ [])
      (hstart : ¬ StartsWithYear holder) :
      IsCopyright ("Copyright (C) " ++ (year ++ ' ' :: holder))
  | span (first last holder : Text) (hfirst : IsYear first) (hlast : IsYear last)
      (hascending : number first ≤ number last) (hne : holder ≠ []) :
      IsCopyright ("Copyright (C) " ++ (first ++ '-' :: (last ++ ' ' :: holder)))

/-- There is no issue with a well-formed copyright on one line. -/
theorem Occurrence.checkCopyright_eq_nil {o : Occurrence} (h : IsCopyright o.content)
    (hline : '\n' ∉ o.content) (s : Scope) : o.checkCopyright s = [] := by
  unfold checkCopyright
  generalize o.content = content at h hline
  cases h with
  | single year holder hyear hne hstart =>
    have hholder : '\n' ∉ holder := fun hmem => hline (by simp [hmem])
    rw [ofText?_single hyear hne hholder hstart]
  | span first last holder hfirst hlast hascending hne =>
    have hholder : '\n' ∉ holder := fun hmem => hline (by simp [hmem])
    have hnot : ¬ last < first := by
      rw [lt_iff_number_lt hlast hfirst]
      omega
    rw [ofText?_span hfirst hlast (by decide) hne hholder]
    simp [hnot]

/-- What there is to report on a copyright, by the form of its content. -/
structure Occurrence.CopyrightReport (s : Scope) (o : Occurrence) (issues : List Issue) : Prop where
  span : ∀ first separator last holder, IsSpanForm o.content first separator last holder →
    issues =
      (if separator = '-' then [] else [s.at o.line .copyrightSeparator]) ++
      (if number last < number first then
        [s.at o.line (.invalidYearSpan (first ++ separator :: last) (last ++ '-' :: first))]
      else [])
  single : ¬ HasSpanForm o.content → HasSingleForm o.content → issues = []
  invalid : ¬ HasSpanForm o.content → ¬ HasSingleForm o.content →
    issues = [s.at o.line .invalidCopyright]

/-- With two years the separator and their order are reported, each on its own. -/
theorem Occurrence.checkCopyright_span {o : Occurrence} {s : Scope} {first last holder : Text}
    {separator : Char} (h : IsSpanForm o.content first separator last holder) :
    o.checkCopyright s =
      (if separator = '-' then [] else [s.at o.line .copyrightSeparator]) ++
      (if number last < number first then
        [s.at o.line (.invalidYearSpan (first ++ separator :: last) (last ++ '-' :: first))]
      else []) := by
  simp only [checkCopyright, ofText?_eq_span_iff.mpr ⟨holder, h⟩,
    lt_iff_number_lt h.isYear_last h.isYear_first]

/-- Every copyright is reported as its form asks for. -/
theorem Occurrence.copyrightReport (s : Scope) (o : Occurrence) :
    o.CopyrightReport s (o.checkCopyright s) where
  span _ _ _ _ h := checkCopyright_span h
  single hspan hsingle := by
    simp only [checkCopyright, ofText?_eq_single_iff.mpr ⟨hspan, hsingle⟩]
  invalid hspan hsingle := by
    unfold checkCopyright
    split
    · rfl
    · next h => exact absurd (ofText?_eq_single_iff.mp h).2 hsingle
    · next first separator last h =>
      obtain ⟨holder, h⟩ := ofText?_eq_span_iff.mp h
      exact absurd ⟨first, separator, last, holder, h⟩ hspan

/-- Years in descending order are reported for a span only, and the suggestion is the same two years
in ascending order. -/
theorem Occurrence.exists_form_of_invalidYearSpan {s : Scope} {o : Occurrence}
    {found suggestion : Text}
    (h : s.at o.line (.invalidYearSpan found suggestion) ∈ o.checkCopyright s) :
    ∃ first separator last holder, IsSpanForm o.content first separator last holder ∧
      number last < number first ∧ found = first ++ separator :: last ∧
      suggestion = last ++ '-' :: first := by
  unfold checkCopyright at h
  split at h
  · simp [Scope.at] at h
  · cases h
  · next first separator last hread =>
    obtain ⟨holder, hform⟩ := ofText?_eq_span_iff.mp hread
    simp only [List.mem_append, List.mem_ite_nil_left, List.mem_ite_nil_right, List.mem_singleton,
      Scope.at, Issue.mk.injEq, reduceCtorEq, and_false, false_or, true_and,
      Finding.invalidYearSpan.injEq] at h
    obtain ⟨hlt, rfl, rfl⟩ := h
    exact ⟨first, separator, last, holder, hform,
      (lt_iff_number_lt hform.isYear_last hform.isYear_first).mp hlt, rfl, rfl⟩

/-- Each copyright is examined by itself, and its form tells what is reported on it. With the
suggested span of years in place of the one that was found, a content has no issue. -/
theorem copyrights_reported_exactly (s : Scope) (os : List Occurrence) :
    ContentRule.copyrights.check s os = os.flatMap (fun o => ContentRule.copyrights.check s [o]) ∧
      ∀ o : Occurrence,
        o.CopyrightReport s (ContentRule.copyrights.check s [o]) ∧
        ∀ found suggestion,
          s.at o.line (.invalidYearSpan found suggestion) ∈ ContentRule.copyrights.check s [o] →
          ∃ behind, o.content = "Copyright (C) " ++ (found ++ behind) ∧
            ∀ o' : Occurrence, o'.content = "Copyright (C) " ++ (suggestion ++ behind) →
              ContentRule.copyrights.check s [o'] = [] := by
  have hone (o : Occurrence) : ContentRule.copyrights.check s [o] = o.checkCopyright s :=
    ContentRule.check_each_singleton o
  simp only [hone]
  refine ⟨rfl, fun o => ⟨o.copyrightReport s, fun found suggestion hmem => ?_⟩⟩
  obtain ⟨first, separator, last, holder, h, hlt, rfl, rfl⟩ :=
    Occurrence.exists_form_of_invalidYearSpan hmem
  refine ⟨' ' :: holder, by rw [h.text]; simp, fun o' hcontent => ?_⟩
  have hform : IsSpanForm o'.content last '-' first holder :=
    ⟨by rw [hcontent]; simp, h.isYear_last, h.isYear_first, by decide, h.holder_ne,
      h.not_mem_holder⟩
  have hascending : ¬ number first < number last := by omega
  rw [Occurrence.checkCopyright_span hform, if_pos rfl, if_neg hascending, List.append_nil]

-- A holder that starts with a year is the end of a span, whose separator is a space.
example : CopyrightYears.ofText? "Copyright (C) 2008 2007 Jane Doe" =
    some (.span "2008" ' ' "2007") := by decide

end DocCheck
