import DocCheck.Proofs.Report.Additions
import DocCheck.Proofs.Text.Split

/-!
# Coloured and plain reports

A colour sequence is an escape character, a bracket, terminal codes and the letter `m`. Erasing the
sequences of a text leaves all else as it is, so that texts can be erased part by part as long as no
part ends inside a sequence. A painted text without escape characters is such a part, and a report
is made of painted and of plain ones: erased, the coloured report is the plain one.
-/

namespace DocCheck

namespace Ink

/-- The characters between the bracket and the end of a colour sequence. -/
def isCodeChar (c : Char) : Bool := c.isDigit || c == ';'

/-- What follows the colour sequence at the start of a text. -/
def afterSequence? : Text → Option Text
  | '\x1b' :: '[' :: t =>
    match t.dropWhile isCodeChar with
    | 'm' :: rest => some rest
    | _ => none
  | _ => none

/-- An escape sequence takes characters. -/
theorem length_afterSequence? {t rest : Text} (h : afterSequence? t = some rest) :
    rest.length < t.length := by
  unfold afterSequence? at h
  split at h
  · next u =>
    split at h
    · next hdrop =>
      cases h
      have hle := (List.dropWhile_sublist isCodeChar (l := u)).length_le
      rw [hdrop] at hle
      simp only [List.length_cons] at hle ⊢
      omega
    · cases h
  · cases h

/-- A text without its colour sequences, read from left to right. -/
def erase : Text → Text
  | [] => []
  | c :: t =>
    match h : afterSequence? (c :: t) with
    | some rest =>
      have := length_afterSequence? h
      erase rest
    | none => c :: erase t
termination_by t => t.length
decreasing_by
  · assumption
  · exact Nat.lt_succ_self t.length

/-- A colour sequence is passed over. -/
theorem erase_sequence {codes : Text} (hcodes : codes.all isCodeChar) (u : Text) :
    erase ('\x1b' :: '[' :: (codes ++ 'm' :: u)) = erase u := by
  have hafter : afterSequence? ('\x1b' :: '[' :: (codes ++ 'm' :: u)) = some u := by
    rw [afterSequence?, List.dropWhile_append_of_pos (List.all_eq_true.mp hcodes),
      List.dropWhile_cons_of_neg (by decide)]
    rfl
  rw [erase]
  split
  · next hsome =>
    cases hafter.symm.trans hsome
    rfl
  · next hnone => cases hafter.symm.trans hnone

/-- A character that starts no sequence is kept. -/
theorem erase_cons {c : Char} (hc : c ≠ '\x1b') (t : Text) : erase (c :: t) = c :: erase t := by
  have hafter : afterSequence? (c :: t) = none := by
    unfold afterSequence?
    split
    · next heq => exact absurd (List.cons_eq_cons.mp heq).1 hc
    · rfl
  rw [erase]
  split
  · next hsome => cases hafter.symm.trans hsome
  · rfl

/-- One text is what is left of another, whatever follows. -/
def Erases (coloured plain : Text) : Prop := ∀ u, erase (coloured ++ u) = plain ++ erase u

/-- What a text erases to is what is left when its sequences are taken out. -/
theorem Erases.erase_eq {coloured plain : Text} (h : Erases coloured plain) :
    erase coloured = plain := by
  have hnil := h []
  rwa [List.append_nil, erase, List.append_nil] at hnil

/-- A text without escape characters has nothing to erase. -/
theorem erases_self {t : Text} (h : '\x1b' ∉ t) : Erases t t := by
  intro u
  induction t with
  | nil => rfl
  | cons c t ih =>
    rw [List.mem_cons, not_or] at h
    rw [List.cons_append, erase_cons (Ne.symm h.1), ih h.2, List.cons_append]

/-- Texts are erased part by part. -/
theorem Erases.append {s t p q : Text} (hs : Erases s p) (ht : Erases t q) :
    Erases (s ++ t) (p ++ q) := by
  intro u
  rw [List.append_assoc, hs, ht, List.append_assoc]

/-- Texts that are erased one by one may be joined. -/
theorem Erases.flatMap {α : Type} {xs : List α} {f g : α → Text}
    (h : ∀ x ∈ xs, Erases (f x) (g x)) : Erases (xs.flatMap f) (xs.flatMap g) := by
  induction xs with
  | nil => exact erases_self (by simp)
  | cons x xs ih =>
    rw [List.flatMap_cons, List.flatMap_cons]
    exact (h x List.mem_cons_self).append (ih fun y hy => h y (List.mem_cons_of_mem x hy))

/-- The sequence that starts an ink leaves nothing. -/
theorem erases_start (ink : Ink) : Erases ink.start [] := by
  have hcodes : ink.codes.all isCodeChar := by cases ink <;> decide
  intro u
  have hstart : ink.start ++ u = '\x1b' :: '[' :: (ink.codes ++ 'm' :: u) := by
    simp [start]
  rw [hstart, erase_sequence hcodes, List.nil_append]

/-- The sequence that ends an ink leaves nothing. -/
theorem erases_reset : Erases reset [] := by
  intro u
  have hcodes : ['0'].all isCodeChar := by decide
  exact erase_sequence hcodes u

/-- A text without escape characters is painted by a sequence on each side of it. -/
theorem paint_eq (ink : Ink) {t : Text} (h : '\x1b' ∉ t) :
    ink.paint true t = ink.start ++ t ++ reset := by
  have hreset : ¬ reset <:+: t := fun hpart => h (hpart.subset (by decide))
  rw [paint, if_pos rfl, Text.replace, Text.splitOn_of_not_infix (by decide) hreset,
    Text.join_singleton]

/-- A painted text is left without its paint. -/
theorem erases_paint (ink : Ink) {t : Text} (h : '\x1b' ∉ t) :
    Erases (ink.paint true t) (ink.paint false t) := by
  have hpainted := ((erases_start ink).append (erases_self h)).append erases_reset
  rwa [← paint_eq ink h, List.nil_append, List.append_nil] at hpainted

end Ink

open Ink

/-- A number has no escape character in it. -/
theorem escape_not_mem_ofNat (n : Nat) : '\x1b' ∉ Text.ofNat n := by
  intro hmem
  have hdigit : Char.isDigit '\x1b' :=
    Nat.isDigit_of_mem_toDigits (by decide) (by decide) hmem
  revert hdigit
  decide

section Parts

/-- A location has no escape character in it but those of its file. -/
theorem escape_not_mem_location {e : Entry} (h : '\x1b' ∉ e.file) : '\x1b' ∉ e.location := by
  unfold Entry.location
  split
  · next line _ =>
    simp only [List.mem_append, not_or]
    exact ⟨⟨h, by decide⟩, escape_not_mem_ofNat line⟩
  · exact h

/-- An entry is left as it is printed without colours. -/
theorem Entry.erases_text {e : Entry} (hfile : '\x1b' ∉ e.file)
    (hmessage : '\x1b' ∉ e.diagnostic.message) : Erases (e.text true) (e.text false) := by
  have hlabel : '\x1b' ∉ e.diagnostic.severity.label.2 := by
    cases e.diagnostic.severity <;> decide
  have hspace : Erases " " " " := erases_self (by decide)
  refine .append (.append (.append (.append (.append (.append ?_ ?_) hspace) ?_) hspace) ?_) ?_
  · exact erases_self (by decide)
  · exact erases_paint _ hlabel
  · exact erases_paint _ (escape_not_mem_location hfile)
  · exact erases_self hmessage
  · exact erases_self (by decide)

/-- A section is left as it is printed without colours. -/
theorem ReportSection.erases_text {s : ReportSection} (hname : '\x1b' ∉ s.name)
    (hentries : ∀ e ∈ s.entries, '\x1b' ∉ e.file ∧ '\x1b' ∉ e.diagnostic.message) :
    Erases (s.text true) (s.text false) := by
  unfold ReportSection.text
  split
  · exact erases_self (by simp)
  · have hheading : '\x1b' ∉ "==> ".toList ++ s.name := by
      rw [List.mem_append, not_or]
      exact ⟨by decide, hname⟩
    have hnewline : Erases "\n" "\n" := erases_self (by decide)
    refine .append (.append (.append hnewline (erases_paint _ hheading)) hnewline) ?_
    exact .flatMap fun e he => Entry.erases_text (hentries e he).1 (hentries e he).2

/-- The summary is left as it is printed without colours. -/
theorem Report.erases_summary (r : Report) : Erases (r.summary true) (r.summary false) := by
  unfold Report.summary
  split
  · exact erases_paint _ (by decide)
  · refine erases_paint _ ?_
    simp only [List.mem_append, not_or]
    exact ⟨⟨⟨⟨by decide, escape_not_mem_ofNat _⟩, by decide⟩, escape_not_mem_ofNat _⟩, by decide⟩

/-- A whole report is left as it is printed without colours. -/
theorem Report.erases_text {r : Report} (hnames : ∀ name ∈ r.names, '\x1b' ∉ name)
    (hentries : ∀ e ∈ r.entries, '\x1b' ∉ e.file ∧ '\x1b' ∉ e.diagnostic.message) :
    Erases (r.text true) (r.text false) := by
  have hnewline : Erases "\n" "\n" := erases_self (by decide)
  refine .append (.append (.append (.flatMap fun s hs => ?_) hnewline) r.erases_summary) hnewline
  refine ReportSection.erases_text (hnames _ (List.mem_map_of_mem hs)) fun e he => ?_
  exact hentries e (List.mem_flatMap.mpr ⟨s, hs, he⟩)

end Parts

/-- Without its colour sequences the coloured report is the plain one, and so is the line that tells
why a run could not start, if no name, no file and no message holds an escape character. -/
theorem erase_coloured {adds : List Addition}
    (hadds : ∀ a ∈ adds, '\x1b' ∉ a.name ∧ '\x1b' ∉ a.file ∧ ∀ i ∈ a.issues, '\x1b' ∉ i.message)
    {message : Text} (hmessage : '\x1b' ∉ message) :
    erase ((Report.ofAdditions adds).text true) = (Report.ofAdditions adds).text false ∧
    erase (startupErrorText message true) = startupErrorText message false := by
  constructor
  · refine (Report.erases_text (fun name hname => ?_) fun e he => ?_).erase_eq
    · rw [Report.names_ofAdditions, List.mem_eraseDups] at hname
      obtain ⟨a, ha, rfl⟩ := List.mem_map.mp hname
      exact (hadds a ha).1
    · rw [(Report.perm_entries_ofAdditions adds).mem_iff] at he
      obtain ⟨a, ha, hmem⟩ := List.mem_flatMap.mp he
      obtain ⟨i, hi, rfl⟩ := List.mem_map.mp hmem
      exact ⟨(hadds a ha).2.1, (hadds a ha).2.2 i hi⟩
  · have hword : Erases (Ink.failure.paint true "Error:") (Ink.failure.paint false "Error:") :=
      erases_paint _ (by decide)
    refine Erases.erase_eq (.append (.append (.append hword ?_) (erases_self hmessage)) ?_)
    · exact erases_self (by decide)
    · exact erases_self (by decide)

/-- Runs whose texts look like colour sequences, up to the escape character. -/
def codeLikeRuns : List Addition :=
  [⟨"[1;36m", "0;1m.json", [⟨0, .unknownTag .declaration "2m"⟩, ⟨7, .invalidLicense⟩],
      ⟨"\n", [⟨.openTag, "<?php\n", 3⟩]⟩⟩,
    ⟨"file-comment", "b.json", [], ⟨"\n", []⟩⟩]

/-- Only the sequences that paint are erased. -/
theorem erase_coloured_codeLikeRuns :
    (∀ a ∈ codeLikeRuns,
      '\x1b' ∉ a.name ∧ '\x1b' ∉ a.file ∧ ∀ i ∈ a.issues, '\x1b' ∉ i.message) ∧
    '\x1b' ∉ "[0m".toList ∧
    erase ((Report.ofAdditions codeLikeRuns).text true) =
      "\n==> [1;36m\n".toList ++
      "  [WARN] 0;1m.json:3 @2m tag is not allowed in class comment\n".toList ++
      "  [ERROR] 0;1m.json @license tag must contain a URL and a license name\n".toList ++
      "\n✗ Found 1 error(s) and 1 warning(s)\n".toList ∧
    erase (startupErrorText "[0m" true) = "Error: [0m\n".toList := by
  have hadds : ∀ a ∈ codeLikeRuns,
      '\x1b' ∉ a.name ∧ '\x1b' ∉ a.file ∧ ∀ i ∈ a.issues, '\x1b' ∉ i.message := by decide
  have hmessage : '\x1b' ∉ "[0m".toList := by decide
  obtain ⟨hreport, herror⟩ := erase_coloured hadds hmessage
  refine ⟨hadds, hmessage, hreport.trans ?_, herror.trans ?_⟩
  · decide +kernel
  · decide

end DocCheck
