import DocCheck.Proofs.Text.Trim
import DocCheck.Rule.Content

/-!
# The grammar of authors

The recogniser cuts the content of an author tag at places where a character stands for the first
or the last time. The grammar only says which parts follow each other and which characters each part
may have. Both accept the same texts, because no part can hold the character that ends it. The rule
for authors therefore reports exactly the contents outside the grammar, each by itself.
-/

namespace DocCheck.Author

/-- An author as it is written: a display name, white space, and in angle brackets a local part, an
`@`, a domain, a dot and a top-level domain. -/
def IsWritten (t : Text) : Prop :=
  ∃ display gap user domain top : Text,
    t = display ++ gap ++ '<' :: (user ++ '@' :: (domain ++ '.' :: top) ++ ['>']) ∧
      '<' ∉ display ∧ gap ≠ [] ∧ gap.isBlank ∧ isLocal user ∧ isDomain domain ∧ isTopLevel top

/-- A top-level domain has no dot. -/
theorem not_mem_of_isTopLevel {t : Text} (h : isTopLevel t) : '.' ∉ t := by
  intro hmem
  simp only [isTopLevel, Bool.and_eq_true, List.all_eq_true] at h
  exact absurd (h.2 _ hmem) (by decide)

/-- The local part of an address has no at sign. -/
theorem not_mem_of_isLocal {t : Text} (h : isLocal t) : '@' ∉ t := by
  intro hmem
  simp only [isLocal, Bool.and_eq_true, List.all_eq_true] at h
  exact absurd (h.2 _ hmem) (by decide)

/-- The last dot of a host stands in front of its top-level domain. -/
theorem isHost_iff {t : Text} :
    isHost t ↔
      ∃ domain top : Text, t = domain ++ '.' :: top ∧ isDomain domain ∧ isTopLevel top := by
  unfold isHost
  rw [Bool.and_eq_true]
  constructor
  · rintro ⟨htop, hdomain⟩
    split at hdomain
    · next domain hdrop =>
      refine ⟨domain.reverse, _, ?_, hdomain, htop⟩
      have hcut : t.reverse = t.reverse.takeWhile (· != '.') ++ '.' :: domain := by
        rw [← hdrop, List.takeWhile_append_dropWhile]
      simpa using congrArg List.reverse hcut
    · cases hdomain
  · rintro ⟨domain, top, rfl, hdomain, htop⟩
    have hdot : '.' ∉ top.reverse := by simpa using not_mem_of_isTopLevel htop
    have hreverse : (domain ++ '.' :: top).reverse = top.reverse ++ '.' :: domain.reverse := by simp
    obtain ⟨htake, hdrop⟩ := takeWhile_ne_append hdot domain.reverse
    rw [hreverse, htake, hdrop, List.reverse_reverse]
    exact ⟨htop, by simpa using hdomain⟩

/-- The `@` of an address stands behind its local part. -/
theorem isAddress_iff {t : Text} :
    isAddress t ↔ ∃ user host : Text, t = user ++ '@' :: host ∧ isLocal user ∧ isHost host := by
  unfold isAddress
  rw [Bool.and_eq_true]
  constructor
  · rintro ⟨huser, hhost⟩
    split at hhost
    · next host hdrop =>
      refine ⟨_, host, ?_, huser, hhost⟩
      rw [← hdrop, List.takeWhile_append_dropWhile]
    · cases hhost
  · rintro ⟨user, host, rfl, huser, hhost⟩
    obtain ⟨htake, hdrop⟩ := takeWhile_ne_append (not_mem_of_isLocal huser) host
    rw [htake, hdrop]
    exact ⟨huser, hhost⟩

/-- The recogniser accepts exactly the authors of the grammar. -/
theorem accepts_iff {t : Text} : accepts t ↔ IsWritten t := by
  unfold accepts
  rw [Bool.and_eq_true]
  constructor
  · rintro ⟨hgap, haddress⟩
    split at haddress
    · next rest hdrop =>
      rw [Bool.and_eq_true, beq_iff_eq] at haddress
      obtain ⟨hclose, haddress⟩ := haddress
      obtain ⟨user, host, haddress, huser, hhost⟩ := isAddress_iff.mp haddress
      obtain ⟨domain, top, rfl, hdomain, htop⟩ := isHost_iff.mp hhost
      obtain ⟨c, hc, hspace⟩ := (Option.any_eq_true _ _).mp hgap
      obtain ⟨display, hdisplay⟩ := List.getLast?_eq_some_iff.mp hc
      refine ⟨display, [c], user, domain, top, ?_, ?_, by simp,
        by simpa [Text.isBlank] using hspace, huser, hdomain, htop⟩
      · rw [← haddress, List.dropLast_append_getLast? _ hclose, ← hdrop, ← hdisplay,
          List.takeWhile_append_dropWhile]
      · intro hmem
        have hmem' : '<' ∈ t.takeWhile (· != '<') := hdisplay ▸ List.mem_append_left _ hmem
        simpa using List.mem_takeWhile_imp hmem'
    · cases haddress
  · rintro ⟨display, gap, user, domain, top, rfl, hdisplay, hne, hgap, huser, hdomain, htop⟩
    have hangle : '<' ∉ display ++ gap := by
      rw [List.mem_append, not_or]
      refine ⟨hdisplay, fun hmem => ?_⟩
      exact absurd (List.all_eq_true.mp hgap _ hmem) (by decide)
    have hlast := List.getLast?_eq_some_getLast hne
    have hspace : isSpace (gap.getLast hne) := List.all_eq_true.mp hgap _ (List.getLast_mem hne)
    obtain ⟨htake, hdrop⟩ := takeWhile_ne_append hangle
      (user ++ '@' :: (domain ++ '.' :: top) ++ ['>'])
    rw [htake, hdrop, List.getLast?_append_of_ne_nil _ hne, hlast]
    refine ⟨hspace, ?_⟩
    simp only [List.getLast?_concat, List.dropLast_concat, beq_self_eq_true, Bool.true_and]
    exact isAddress_iff.mpr ⟨user, _, rfl, huser, isHost_iff.mpr ⟨domain, top, rfl, hdomain, htop⟩⟩

/-- An author by its parts, each with the characters it may have. -/
structure Parts where
  display : Text
  gap : Text
  user : Text
  domain : Text
  top : Text
  not_mem_display : '<' ∉ display
  gap_ne_nil : gap ≠ []
  gap_chars : ∀ c ∈ gap, isSpace c
  user_length : 2 ≤ user.length
  user_chars : ∀ c ∈ user, c.isAlphanum ∨ c ∈ ['-', '_', '+', '.']
  user_head : user.head? ≠ some '.'
  user_last : user.getLast? ≠ some '.'
  domain_length : 2 ≤ domain.length
  domain_chars : ∀ c ∈ domain, c.isAlphanum ∨ c ∈ ['-', '_', '.']
  domain_head : ∀ c ∈ domain.head?, c.isAlphanum
  domain_last : ∀ c ∈ domain.getLast?, c.isAlphanum
  top_length : 2 ≤ top.length ∧ top.length ≤ 7
  top_chars : ∀ c ∈ top, c.isAlpha

/-- The parts one after the other, with the characters that separate them. -/
def Parts.text (a : Parts) : Text :=
  a.display ++ a.gap ++ '<' :: (a.user ++ '@' :: (a.domain ++ '.' :: a.top) ++ ['>'])

/-- The ends of a text that is not empty. -/
private theorem exists_ends {t : Text} (h : 2 ≤ t.length) :
    ∃ a b, t.head? = some a ∧ t.getLast? = some b ∧ a ∈ t ∧ b ∈ t := by
  have hne : t ≠ [] := List.ne_nil_of_length_pos (by omega)
  exact ⟨_, _, List.head?_eq_some_head hne, List.getLast?_eq_some_getLast hne,
    List.head_mem hne, List.getLast_mem hne⟩

/-- A dot is the only character of a local part that cannot stand at its ends. -/
theorem isLocal_iff {t : Text} :
    isLocal t ↔ 2 ≤ t.length ∧ (∀ c ∈ t, c.isAlphanum ∨ c ∈ ['-', '_', '+', '.']) ∧
      t.head? ≠ some '.' ∧ t.getLast? ≠ some '.' := by
  have hchar (c : Char) :
      (isLocalEnd c || c == '.') = true ↔ c.isAlphanum ∨ c ∈ ['-', '_', '+', '.'] := by
    simp [isLocalEnd, or_assoc]
  have hend {c : Char} (hc : c.isAlphanum ∨ c ∈ ['-', '_', '+', '.']) :
      isLocalEnd c ↔ c ≠ '.' := by
    constructor
    · rintro h rfl
      exact absurd h (by decide)
    · intro hdot
      simpa [hdot] using (hchar c).mpr hc
  simp only [isLocal, Bool.and_eq_true, decide_eq_true_eq, List.all_eq_true, hchar, and_assoc]
  refine and_congr_right fun hlength => ?_
  obtain ⟨a, b, ha, hb, hamem, hbmem⟩ := exists_ends hlength
  simp only [ha, hb, Option.any_some, ne_eq, Option.some.injEq]
  constructor
  · rintro ⟨hhead, hlast, hchars⟩
    exact ⟨hchars, (hend (hchars a hamem)).mp hhead, (hend (hchars b hbmem)).mp hlast⟩
  · rintro ⟨hchars, hhead, hlast⟩
    exact ⟨(hend (hchars a hamem)).mpr hhead, (hend (hchars b hbmem)).mpr hlast, hchars⟩

/-- A domain has at least two characters, and letters or digits at its ends. -/
theorem isDomain_iff {t : Text} :
    isDomain t ↔ 2 ≤ t.length ∧ (∀ c ∈ t, c.isAlphanum ∨ c ∈ ['-', '_', '.']) ∧
      (∀ c ∈ t.head?, c.isAlphanum) ∧ ∀ c ∈ t.getLast?, c.isAlphanum := by
  simp only [isDomain, Bool.and_eq_true, decide_eq_true_eq, List.all_eq_true, and_assoc]
  refine and_congr_right fun hlength => ?_
  obtain ⟨a, b, ha, hb, -, -⟩ := exists_ends hlength
  simp only [ha, hb, Option.any_some, Option.mem_def, Option.some.injEq, forall_eq',
    Bool.or_eq_true, beq_iff_eq, List.mem_cons, List.not_mem_nil, or_false, or_assoc]
  exact ⟨fun ⟨hhead, hlast, hchars⟩ => ⟨hchars, hhead, hlast⟩,
    fun ⟨hchars, hhead, hlast⟩ => ⟨hhead, hlast, hchars⟩⟩

/-- A top-level domain has two to seven letters. -/
theorem isTopLevel_iff {t : Text} :
    isTopLevel t ↔ (2 ≤ t.length ∧ t.length ≤ 7) ∧ ∀ c ∈ t, c.isAlpha := by
  simp [isTopLevel]

/-- An author as it is written has parts of the right characters. -/
theorem isWritten_iff {t : Text} : IsWritten t ↔ ∃ a : Parts, t = a.text := by
  constructor
  · rintro ⟨display, gap, user, domain, top, rfl, hdisplay, hne, hgap, huser, hdomain, htop⟩
    obtain ⟨huser, huserChars, huserHead, huserLast⟩ := isLocal_iff.mp huser
    obtain ⟨hdomain, hdomainChars, hdomainHead, hdomainLast⟩ := isDomain_iff.mp hdomain
    obtain ⟨htop, htopChars⟩ := isTopLevel_iff.mp htop
    exact ⟨⟨display, gap, user, domain, top, hdisplay, hne, List.all_eq_true.mp hgap, huser,
      huserChars, huserHead, huserLast, hdomain, hdomainChars, hdomainHead, hdomainLast, htop,
      htopChars⟩, rfl⟩
  · rintro ⟨a, rfl⟩
    exact ⟨a.display, a.gap, a.user, a.domain, a.top, rfl, a.not_mem_display, a.gap_ne_nil,
      List.all_eq_true.mpr a.gap_chars,
      isLocal_iff.mpr ⟨a.user_length, a.user_chars, a.user_head, a.user_last⟩,
      isDomain_iff.mpr ⟨a.domain_length, a.domain_chars, a.domain_head, a.domain_last⟩,
      isTopLevel_iff.mpr ⟨a.top_length, a.top_chars⟩⟩

end DocCheck.Author

namespace DocCheck

/-- Each author is examined by itself. A content that is not empty has no issue exactly if it has
the parts of an author, and otherwise one. -/
theorem authors_reported_exactly (s : Scope) (os : List Occurrence) :
    ContentRule.authors.check s os = os.flatMap (fun o => ContentRule.authors.check s [o]) ∧
      ∀ o : Occurrence,
        (o.content = [] → ContentRule.authors.check s [o] =
          [s.at o.line (.missingContent s.owner o.name)]) ∧
        (o.content ≠ [] →
          (ContentRule.authors.check s [o] = [] ↔ ∃ a : Author.Parts, o.content = a.text) ∧
          ((¬ ∃ a : Author.Parts, o.content = a.text) →
            ContentRule.authors.check s [o] = [s.at o.line .invalidAuthor])) := by
  have hone (o : Occurrence) : ContentRule.authors.check s [o] = o.checkAuthor s :=
    ContentRule.check_each_singleton o
  simp only [hone, ← Author.isWritten_iff, ← Author.accepts_iff]
  refine ⟨rfl, fun o => ⟨fun hempty => ?_, fun hcontent => ?_⟩⟩
  · rw [Occurrence.checkAuthor, if_pos (List.isEmpty_iff.mpr hempty)]
  · have hne : ¬ o.content.isEmpty := by simpa using hcontent
    rw [Occurrence.checkAuthor, if_neg hne]
    cases Author.accepts o.content <;> simp

-- The display name has white space, the local part and the domain have dots.
example : Author.accepts "Jane  van Doe \u00a0<jane.doe+php@mail.a-b.example.org>" := by decide

end DocCheck
