import DocCheck.Proofs.Text.Split
import Mathlib.Data.List.TakeWhile

/-!
# Visible characters

The visible characters of a text are those that are not white space. Trimming and cutting at white
space keep them, and so does joining with a blank separator. All three kinds of white space count:
margins and gaps are made of characters with the Unicode property.
-/

namespace DocCheck.Text

/-- The visible characters of a text, in order. -/
def visible (t : Text) : Text := t.filter (!isSpace ·)

/-- Nothing is visible in an empty text. -/
@[simp] theorem visible_nil : visible [] = [] := rfl

/-- What is visible in two texts is visible in both together. -/
@[simp] theorem visible_append (t u : Text) : visible (t ++ u) = visible t ++ visible u :=
  List.filter_append t u

/-- A space is not visible. -/
theorem visible_cons_of_isSpace {c : Char} (hc : isSpace c) (t : Text) :
    visible (c :: t) = visible t := by
  simp [visible, hc]

/-- Any other character is visible. -/
theorem visible_cons_of_not_isSpace {c : Char} (hc : isSpace c = false) (t : Text) :
    visible (c :: t) = c :: visible t := by
  simp [visible, hc]

/-- A blank text is one without visible characters. -/
theorem visible_eq_nil_iff {t : Text} : visible t = [] ↔ t.isBlank := by
  simp [visible, isBlank, List.filter_eq_nil_iff]

/-- Nothing is visible in a blank text. -/
theorem visible_of_isBlank {t : Text} (h : t.isBlank) : visible t = [] := visible_eq_nil_iff.mpr h

/-- Dropping white space of any kind from the front keeps the visible characters. -/
theorem visible_dropWhile {p : Char → Bool} (hp : ∀ c, p c → isSpace c) (t : Text) :
    visible (t.dropWhile p) = visible t := by
  have hfront : visible (t.takeWhile p) = [] := by
    refine visible_of_isBlank (List.all_eq_true.mpr fun c hc => ?_)
    exact hp c (List.mem_takeWhile_imp hc)
  calc visible (t.dropWhile p)
      = visible (t.takeWhile p) ++ visible (t.dropWhile p) := by rw [hfront, List.nil_append]
    _ = visible t := by rw [← visible_append, List.takeWhile_append_dropWhile]

/-- Trimming the start takes nothing visible. -/
@[simp] theorem visible_trimStart (t : Text) : visible t.trimStart = visible t :=
  visible_dropWhile (fun _ h => h) t

/-- Trimming the end takes nothing visible. -/
@[simp] theorem visible_trimEnd (t : Text) : visible t.trimEnd = visible t := by
  have hreverse (u : Text) : visible u.reverse = (visible u).reverse := List.filter_reverse ..
  rw [trimEnd, hreverse, visible_dropWhile (fun _ h => h), hreverse, List.reverse_reverse]

/-- Trimming both ends takes nothing visible. -/
@[simp] theorem visible_trim (t : Text) : visible t.trim = visible t := by
  rw [trim, visible_trimEnd, visible_trimStart]

/-- The visible characters of several texts, one text after the other. -/
def visibleAll (ts : List Text) : Text := ts.flatMap visible

/-- Nothing is visible on no lines. -/
@[simp] theorem visibleAll_nil : visibleAll [] = [] := rfl

/-- What is visible on the first line and then on the others. -/
@[simp] theorem visibleAll_cons (t : Text) (ts : List Text) :
    visibleAll (t :: ts) = visible t ++ visibleAll ts := List.flatMap_cons

/-- What is visible on two runs of lines. -/
@[simp] theorem visibleAll_append (ts us : List Text) :
    visibleAll (ts ++ us) = visibleAll ts ++ visibleAll us := List.flatMap_append

/-- Blank texts have nothing to show. -/
theorem visibleAll_of_isBlank {ts : List Text} (h : ∀ t ∈ ts, t.isBlank) : visibleAll ts = [] :=
  List.flatMap_eq_nil_iff.mpr fun t ht => visible_of_isBlank (h t ht)

/-- A change that keeps the visible characters of each text keeps those of all. -/
theorem visibleAll_map {f : Text → Text} (hf : ∀ t, visible (f t) = visible t)
    (ts : List Text) : visibleAll (ts.map f) = visibleAll ts := by
  simp only [visibleAll, List.flatMap_map, hf]

/-- Blank texts in front may be left out. -/
theorem visibleAll_dropWhile_isBlank (ts : List Text) :
    visibleAll (ts.dropWhile isBlank) = visibleAll ts := by
  have hfront : visibleAll (ts.takeWhile isBlank) = [] :=
    visibleAll_of_isBlank fun t ht => List.mem_takeWhile_imp ht
  calc visibleAll (ts.dropWhile isBlank)
      = visibleAll (ts.takeWhile isBlank) ++ visibleAll (ts.dropWhile isBlank) := by
        rw [hfront, List.nil_append]
    _ = visibleAll ts := by rw [← visibleAll_append, List.takeWhile_append_dropWhile]

/-- Blank texts at the end may be left out. -/
theorem visibleAll_dropBlankEnd (ts : List Text) :
    visibleAll (ts.reverse.dropWhile isBlank).reverse = visibleAll ts := by
  have hend : visibleAll (ts.reverse.takeWhile isBlank).reverse = [] :=
    visibleAll_of_isBlank fun t ht => List.mem_takeWhile_imp (List.mem_reverse.mp ht)
  calc visibleAll (ts.reverse.dropWhile isBlank).reverse
      = visibleAll ((ts.reverse.dropWhile isBlank).reverse ++
          (ts.reverse.takeWhile isBlank).reverse) := by
        rw [visibleAll_append, hend, List.append_nil]
    _ = visibleAll ts := by
        rw [← List.reverse_append, List.takeWhile_append_dropWhile, List.reverse_reverse]

/-- A blank separator adds nothing visible. -/
theorem visible_join {sep : Text} (hsep : sep.isBlank) (ts : List Text) :
    visible (join sep ts) = visibleAll ts := by
  induction ts with
  | nil => rfl
  | cons t ts ih =>
    by_cases hts : ts = []
    · simp [hts]
    · rw [join_cons _ _ hts, visible_append, visible_append, visible_of_isBlank hsep,
        List.nil_append, ih, visibleAll_cons]

end DocCheck.Text
