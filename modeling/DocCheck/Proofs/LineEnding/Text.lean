import DocCheck.Proofs.Text.Split
import Mathlib.Data.List.DropRight

/-!
# Line ends in a text

Writing a carriage return in front of every line feed commutes with the operations on texts, as
long as they treat the two characters alike. Only lengths in bytes grow, by one for each line feed.
-/

namespace DocCheck.Text

/-- The text with every line feed written as a carriage return and a line feed. -/
def crlf (t : Text) : Text := t.replace "\n" "\r\n"

private theorem newline_ne_nil : ("\n" : Text) ≠ [] := by decide

/-- An empty text has no line end. -/
@[simp] theorem crlf_nil : crlf [] = [] := rfl

/-- A line feed gets a carriage return in front. -/
@[simp] theorem crlf_newline (t : Text) : crlf ('\n' :: t) = '\r' :: '\n' :: crlf t := by
  have h := splitOn_sep_append newline_ne_nil t
  change splitOn ('\n' :: t) "\n" = _ at h
  rw [crlf, replace, h, join_cons _ _ (splitOn_ne_nil newline_ne_nil t)]
  rfl

/-- Any other character stays. -/
theorem crlf_cons {c : Char} (hc : c ≠ '\n') (t : Text) : crlf (c :: t) = c :: crlf t := by
  have hprefix : ¬ ("\n" : Text) <+: c :: t := fun h => hc (List.cons_prefix_cons.mp h).1.symm
  rw [crlf, replace, splitOn_cons newline_ne_nil hprefix,
    join_modifyHead _ _ (splitOn_ne_nil newline_ne_nil t)]
  rfl

/-- Line ends are replaced in each part of a text. -/
@[simp] theorem crlf_append (t u : Text) : crlf (t ++ u) = crlf t ++ crlf u := by
  induction t with
  | nil => rfl
  | cons c t ih =>
    by_cases hc : c = '\n'
    · rw [hc, List.cons_append, crlf_newline, crlf_newline, ih]
      rfl
    · rw [List.cons_append, crlf_cons hc, crlf_cons hc, ih, List.cons_append]

/-- A text without line feeds stays as it is. -/
theorem crlf_eq_self {t : Text} (h : '\n' ∉ t) : crlf t = t := by
  induction t with
  | nil => rfl
  | cons c t ih =>
    rw [List.mem_cons, not_or] at h
    rw [crlf_cons (Ne.symm h.1), ih h.2]

/-- No character but the carriage return comes in, and none goes. -/
theorem mem_crlf {c : Char} (hc : c ≠ '\r') {t : Text} : c ∈ crlf t ↔ c ∈ t := by
  induction t with
  | nil => rfl
  | cons d t ih =>
    by_cases hd : d = '\n'
    · rw [hd, crlf_newline]
      simp [hc, ih]
    · rw [crlf_cons hd, List.mem_cons, List.mem_cons, ih]

/-- Only an empty text becomes empty. -/
@[simp] theorem crlf_isEmpty (t : Text) : (crlf t).isEmpty = t.isEmpty := by
  cases t with
  | nil => rfl
  | cons c t =>
    by_cases hc : c = '\n'
    · rw [hc, crlf_newline]
      rfl
    · rw [crlf_cons hc]
      rfl

/-- Only an empty text becomes the empty one. -/
theorem crlf_eq_nil_iff {t : Text} : crlf t = [] ↔ t = [] := by
  rw [← List.isEmpty_iff, crlf_isEmpty, List.isEmpty_iff]

/-- Only a line feed becomes a line end on its own. -/
theorem crlf_eq_lineEnd_iff {t : Text} (h : '\r' ∉ t) : crlf t = "\r\n" ↔ t = "\n" := by
  cases t with
  | nil => decide
  | cons c t =>
    by_cases hc : c = '\n'
    · rw [hc, crlf_newline]
      change '\r' :: '\n' :: crlf t = ['\r', '\n'] ↔ '\n' :: t = ['\n']
      rw [List.cons.injEq, List.cons.injEq, List.cons.injEq, crlf_eq_nil_iff]
      simp
    · rw [crlf_cons hc]
      change c :: crlf t = ['\r', '\n'] ↔ c :: t = ['\n']
      simp only [List.cons.injEq, hc, false_and, iff_false, not_and]
      rintro rfl
      exact absurd List.mem_cons_self h

section Characters

variable {p : Char → Bool}

/-- A test that treats both line end characters alike takes the same part. -/
theorem takeWhile_crlf (hp : p '\r' = p '\n') (t : Text) :
    (crlf t).takeWhile p = crlf (t.takeWhile p) := by
  induction t with
  | nil => rfl
  | cons c t ih =>
    by_cases hc : c = '\n'
    · rw [hc, crlf_newline, List.takeWhile_cons, List.takeWhile_cons, hp, ih, List.takeWhile_cons]
      split
      · exact (crlf_newline _).symm
      · rfl
    · rw [crlf_cons hc, List.takeWhile_cons, ih, List.takeWhile_cons]
      split
      · exact (crlf_cons hc _).symm
      · rfl

/-- A test that treats both line end characters alike drops the same part. -/
theorem dropWhile_crlf (hp : p '\r' = p '\n') (t : Text) :
    (crlf t).dropWhile p = crlf (t.dropWhile p) := by
  induction t with
  | nil => rfl
  | cons c t ih =>
    by_cases hc : c = '\n'
    · rw [hc, crlf_newline, List.dropWhile_cons, List.dropWhile_cons, hp, ih, List.dropWhile_cons]
      split
      · rfl
      · exact (crlf_newline t).symm
    · rw [crlf_cons hc, List.dropWhile_cons, ih, List.dropWhile_cons]
      split
      · rfl
      · exact (crlf_cons hc t).symm

/-- Dropping characters from the end. -/
theorem rdropWhile_crlf (hp : p '\r' = p '\n') (t : Text) :
    (crlf t).rdropWhile p = crlf (t.rdropWhile p) := by
  induction t using List.reverseRecOn with
  | nil => rfl
  | append_singleton t c ih =>
    rw [List.rdropWhile_concat, crlf_append]
    by_cases hc : c = '\n'
    · have hline : crlf t ++ crlf ['\n'] = crlf t ++ ['\r'] ++ ['\n'] := by simp
      rw [hc, hline, List.rdropWhile_concat, List.rdropWhile_concat, hp, ih]
      split
      · rfl
      · rw [crlf_append, hline]
    · have hsame : crlf [c] = [c] := crlf_cons hc []
      rw [hsame, List.rdropWhile_concat, ih]
      split
      · rfl
      · rw [crlf_append, hsame]

/-- A test that treats both line end characters alike holds of all characters or not. -/
theorem all_crlf (hp : p '\r' = p '\n') (t : Text) : (crlf t).all p = t.all p := by
  induction t with
  | nil => rfl
  | cons c t ih =>
    by_cases hc : c = '\n'
    · rw [hc, crlf_newline, List.all_cons, List.all_cons, ih, hp, List.all_cons, ← Bool.and_assoc,
        Bool.and_self]
    · rw [crlf_cons hc, List.all_cons, ih, List.all_cons]

/-- A test that treats both line end characters alike holds of the first one or not. -/
theorem head?_any_crlf (hp : p '\r' = p '\n') (t : Text) :
    (crlf t).head?.any p = t.head?.any p := by
  cases t with
  | nil => rfl
  | cons c t =>
    by_cases hc : c = '\n'
    · rw [hc, crlf_newline]
      exact hp
    · rw [crlf_cons hc]
      rfl

end Characters

/-- The last character stays, as a carriage return is never last. -/
theorem getLast?_crlf (t : Text) : (crlf t).getLast? = t.getLast? := by
  induction t using List.reverseRecOn with
  | nil => rfl
  | append_singleton t c ih =>
    rw [crlf_append]
    by_cases hc : c = '\n'
    · simp [hc]
    · simp [crlf_cons hc]

/-- A blank text stays blank. -/
@[simp] theorem isBlank_crlf (t : Text) : (crlf t).isBlank = t.isBlank := all_crlf (by decide) t

/-- Trimming the end takes whole line ends. -/
@[simp] theorem trimEnd_crlf (t : Text) : (crlf t).trimEnd = crlf t.trimEnd :=
  rdropWhile_crlf (by decide) t

/-- Trimming both ends takes whole line ends. -/
@[simp] theorem trim_crlf (t : Text) : (crlf t).trim = crlf t.trim := by
  rw [trim, trimStart, dropWhile_crlf (by decide), trimEnd_crlf]
  rfl

/-- A word ends in front of a line end. -/
theorem takeWord_crlf (t : Text) :
    (crlf t).takeWhile (!isSpace ·) = crlf (t.takeWhile (!isSpace ·)) := takeWhile_crlf rfl t

/-- What follows a word keeps its line ends. -/
theorem dropWord_crlf (t : Text) :
    (crlf t).dropWhile (!isSpace ·) = crlf (t.dropWhile (!isSpace ·)) := dropWhile_crlf rfl t

/-- A line feed becomes two bytes, all else keeps its length. -/
theorem byteLength_crlf (t : Text) : (crlf t).byteLength = t.byteLength + List.count '\n' t := by
  induction t with
  | nil => rfl
  | cons c t ih =>
    by_cases hc : c = '\n'
    · have hcr : '\r'.utf8Size = 1 := by decide
      rw [hc, crlf_newline, byteLength, byteLength, byteLength, ih, hcr, List.count_cons_self]
      omega
    · rw [crlf_cons hc, byteLength, byteLength, ih, List.count_cons_of_ne hc]
      omega

/-- A test that no line end passes counts the same characters. -/
theorem countP_crlf {p : Char → Bool} (hr : p '\r' = false) (hn : p '\n' = false) (t : Text) :
    (crlf t).countP p = t.countP p := by
  induction t with
  | nil => rfl
  | cons c t ih =>
    by_cases hc : c = '\n'
    · simp [hc, hr, hn, ih]
    · rw [crlf_cons hc, List.countP_cons, ih, List.countP_cons]

/-- Changing single characters other than line ends into others does not interfere. -/
theorem map_crlf {f : Char → Char} (hr : f '\r' = '\r') (hn : ∀ c, f c = '\n' ↔ c = '\n')
    (t : Text) : (crlf t).map f = crlf (t.map f) := by
  induction t with
  | nil => rfl
  | cons c t ih =>
    by_cases hc : c = '\n'
    · have hnewline : f '\n' = '\n' := (hn '\n').mpr rfl
      rw [hc, crlf_newline, List.map_cons, List.map_cons, List.map_cons, ih, hr, hnewline,
        crlf_newline]
    · rw [crlf_cons hc, List.map_cons, ih, List.map_cons, crlf_cons (mt (hn c).mp hc)]

section Parts

variable {m : Text}

/-- What follows a lead without line ends. -/
theorem after?_crlf (hr : '\r' ∉ m) (hn : '\n' ∉ m) (t : Text) :
    (crlf t).after? m = (t.after? m).map crlf := by
  induction m generalizing t with
  | nil => rw [after?, after?, Option.map_some]
  | cons x m ih =>
    rw [List.mem_cons, not_or] at hr hn
    cases t with
    | nil => rfl
    | cons c t =>
      by_cases hc : c = '\n'
      · rw [hc, crlf_newline, after?, if_neg (Ne.symm hr.1), after?, if_neg (Ne.symm hn.1),
          Option.map_none]
      · rw [crlf_cons hc, after?, ih hr.2 hn.2, after?]
        split <;> rfl

/-- A text without line ends starts the one text if it starts the other. -/
theorem prefix_crlf_iff (hr : '\r' ∉ m) (hn : '\n' ∉ m) {t : Text} : m <+: crlf t ↔ m <+: t := by
  rw [← isSome_after?_iff, after?_crlf hr hn, Option.isSome_map, isSome_after?_iff]

/-- A text without line ends is a part of the one text if it is a part of the other. -/
theorem infix_crlf_iff (hr : '\r' ∉ m) (hn : '\n' ∉ m) {t : Text} :
    m <:+: crlf t ↔ m <:+: t := by
  induction t with
  | nil => rfl
  | cons c t ih =>
    by_cases hc : c = '\n'
    · have hstart {x : Char} (hx : x ∉ m) (u : Text) : m <+: x :: u ↔ m = [] := by
        cases m with
        | nil => simp
        | cons y m =>
          simp only [List.cons_prefix_cons, reduceCtorEq, iff_false, not_and]
          rintro rfl
          exact absurd List.mem_cons_self hx
      rw [hc, crlf_newline, List.infix_cons_iff, List.infix_cons_iff, List.infix_cons_iff, ih,
        hstart hr, hstart hn, hstart hn, ← or_assoc, or_self]
    · rw [crlf_cons hc, List.infix_cons_iff, ih, ← crlf_cons hc, prefix_crlf_iff hr hn,
        List.infix_cons_iff]

/-- A text without line ends is found in the one text if it is found in the other. -/
theorem contains_crlf (hr : '\r' ∉ m) (hn : '\n' ∉ m) (t : Text) :
    (crlf t).contains m = t.contains m := by
  rw [Bool.eq_iff_iff, contains_iff_infix, contains_iff_infix, infix_crlf_iff hr hn]

/-- Splitting at a separator without line ends. -/
theorem splitOn_crlf (hm : m ≠ []) (hr : '\r' ∉ m) (hn : '\n' ∉ m) (t : Text) :
    splitOn (crlf t) m = (splitOn t m).map crlf := by
  have hstart {x : Char} (hx : x ∉ m) (u : Text) : ¬ m <+: x :: u := by
    intro h
    obtain ⟨y, m, rfl⟩ := List.exists_cons_of_ne_nil hm
    rw [(List.cons_prefix_cons.mp h).1] at hx
    exact hx List.mem_cons_self
  induction t using splitOn_induction hm with
  | nil => rw [crlf_nil, splitOn_nil hm, List.map_singleton, crlf_nil]
  | found t ih =>
    rw [crlf_append, crlf_eq_self hn, splitOn_sep_append hm, ih, splitOn_sep_append hm,
      List.map_cons, crlf_nil]
  | other c t hprefix ih =>
    obtain ⟨p, ps, hps⟩ := List.exists_cons_of_ne_nil (splitOn_ne_nil hm t)
    rw [splitOn_cons hm hprefix, hps, List.modifyHead_cons, List.map_cons]
    rw [hps, List.map_cons] at ih
    by_cases hc : c = '\n'
    · rw [hc, crlf_newline, splitOn_cons hm (hstart hr _), splitOn_cons hm (hstart hn _), ih,
        List.modifyHead_cons, List.modifyHead_cons, crlf_newline]
    · have hprefix' : ¬ m <+: c :: crlf t := by
        rw [← crlf_cons hc, prefix_crlf_iff hr hn]
        exact hprefix
      rw [crlf_cons hc, splitOn_cons hm hprefix', ih, List.modifyHead_cons, crlf_cons hc]

end Parts

section LineEnds

variable {t : Text}

/-- The lines of a text are the same under both line ends. -/
theorem splitOn_lineEnd_crlf (h : '\r' ∉ t) : splitOn (crlf t) "\r\n" = splitOn t "\n" := by
  apply splitOn_join (IsLineEnd.headUnique (.inr rfl)) (splitOn_ne_nil newline_ne_nil t)
  intro p hp heol
  have hpart := infix_of_mem_splitOn newline_ne_nil hp
  exact h ((heol.trans hpart).subset (by decide))

/-- There are as many line ends. -/
theorem count_lineEnd_crlf (h : '\r' ∉ t) : count (crlf t) "\r\n" = count t "\n" := by
  rw [count, splitOn_lineEnd_crlf h, count]

/-- A text in which no line end is last has none. -/
theorem not_mem_of_afterLast?_eq_none (h : afterLast? t "\n" = none) : '\n' ∉ t := fun hmem =>
  afterLast?_eq_none_iff.mp h ((List.singleton_infix_iff _ _).mpr hmem)

/-- What stands behind the last line end is the same under both line ends. -/
theorem afterLast?_lineEnd_crlf (h : '\r' ∉ t) :
    afterLast? (crlf t) "\r\n" = afterLast? t "\n" := by
  induction t with
  | nil => rfl
  | cons c t ih =>
    rw [List.mem_cons, not_or] at h
    by_cases hc : c = '\n'
    · have hcr : after? ('\r' :: '\n' :: crlf t) "\r\n" = some (crlf t) :=
        after?_eq_some_iff.mpr rfl
      have hmiddle : after? ('\n' :: crlf t) "\r\n" = none := rfl
      have hlf : after? ('\n' :: t) "\n" = some t := after?_eq_some_iff.mpr rfl
      rw [hc, crlf_newline, afterLast?, afterLast?, ih h.2, afterLast?, hcr, hmiddle, hlf,
        Option.or_none]
      cases hlast : afterLast? t "\n" with
      | some rest => rfl
      | none =>
        -- The line feed in front was the last one, so the text behind it has none.
        rw [crlf_eq_self (not_mem_of_afterLast?_eq_none hlast)]
    · have hcr : after? (c :: crlf t) "\r\n" = none := if_neg h.1
      have hlf : after? (c :: t) "\n" = none := if_neg (Ne.symm hc)
      rw [crlf_cons hc, afterLast?, ih h.2, afterLast?, hcr, hlf]

/-- Line ends are replaced in the parts and in the separator. -/
theorem crlf_join (sep : Text) (ps : List Text) :
    crlf (join sep ps) = join (crlf sep) (ps.map crlf) := by
  induction ps with
  | nil => rfl
  | cons p ps ih =>
    by_cases hps : ps = []
    · rw [hps, join_singleton, List.map_singleton, join_singleton]
    · rw [join_cons _ _ hps, crlf_append, crlf_append, ih, List.map_cons,
        join_cons _ _ (by simpa using hps)]

/-- Lines joined by the one line end and by the other. -/
theorem join_lineEnd {ps : List Text} (h : ∀ p ∈ ps, '\n' ∉ p) :
    join "\r\n" ps = crlf (join "\n" ps) := by
  have hps : ps.map crlf = ps :=
    (List.map_congr_left fun p hp => crlf_eq_self (h p hp)).trans (List.map_id' ps)
  rw [crlf_join, hps]
  rfl

/-- A number of line ends. -/
theorem times_lineEnd (n : Nat) : times "\r\n" n = crlf (times "\n" n) := by
  induction n with
  | zero => rfl
  | succ n ih =>
    rw [times, times, List.replicate_succ, List.replicate_succ, List.flatten_cons,
      List.flatten_cons, crlf_append, ← times, ← times, ih]
    rfl

end LineEnds

end DocCheck.Text
