import DocCheck.Proofs.Ownership
import DocCheck.Proofs.Text.Lines
import DocCheck.Stream.Builder
import Mathlib.Data.List.TakeWhile

/-!
# Streams that were built

A builder appends tokens whose texts are the texts it was given. From an open tag, a documentation
comment, line ends and a class it builds a stream with a lone comment, and unless there is exactly
one line end the comment is the file's, with the text that was given.
-/

namespace DocCheck

namespace Builder

variable (b : Builder)

/-- Appending tokens keeps the line end. -/
theorem eol_foldl_push (kind : Kind) (texts : List Text) :
    (texts.foldl (·.push kind ·) b).eol = b.eol := by
  induction texts generalizing b with
  | nil => rfl
  | cons t texts ih => exact ih (b.push kind t)

/-- Texts are appended as tokens of the given kind, one for each of them. -/
theorem exists_tokens_foldl_push (kind : Kind) (texts : List Text) :
    ∃ ts, (texts.foldl (·.push kind ·) b).tokens = b.tokens ++ ts ∧
      ts.map (·.text) = texts ∧ ∀ t ∈ ts, t.kind = kind := by
  induction texts generalizing b with
  | nil => exact ⟨[], (List.append_nil _).symm, rfl, by simp⟩
  | cons text texts ih =>
    obtain ⟨ts, htokens, htexts, hkind⟩ := ih (b.push kind text)
    refine ⟨⟨kind, text, b.line⟩ :: ts, ?_, congrArg (text :: ·) htexts, ?_⟩
    · rw [List.foldl_cons, htokens, push, List.append_assoc]
      rfl
    · rintro t (_ | ⟨_, ht⟩)
      · rfl
      · exact hkind t ht

/-- A documentation comment is appended with the text that was given. -/
theorem exists_tokens_docComment (text : Text) :
    ∃ docs, (b.docComment text).tokens = b.tokens ++ docs ∧ docs.flatMap (·.text) = text ∧
      ∀ t ∈ docs, t.kind = .docComment := by
  obtain ⟨docs, hdocs, htexts, hkind⟩ := b.exists_tokens_foldl_push .docComment (text.lines b.eol)
  refine ⟨docs, hdocs, ?_, hkind⟩
  rw [List.flatMap_def, htexts, Text.flatten_lines]

/-- Line ends are appended one by one. -/
theorem newlines_eq_foldl (n : Nat) :
    b.newlines n = (List.replicate n b.eol).foldl (·.push .whitespace ·) b := by
  induction n generalizing b with
  | zero => rfl
  | succ n ih => exact ih b.newline

/-- Line ends are appended as tokens of their own. -/
theorem exists_tokens_newlines (n : Nat) :
    ∃ breaks, (b.newlines n).tokens = b.tokens ++ breaks ∧ breaks.length = n ∧
      ∀ t ∈ breaks, t.kind = .whitespace ∧ t.text = b.eol := by
  obtain ⟨breaks, hbreaks, htexts, hkind⟩ :=
    b.exists_tokens_foldl_push .whitespace (List.replicate n b.eol)
  refine ⟨breaks, by rw [newlines_eq_foldl, hbreaks], ?_, fun t ht => ⟨hkind t ht, ?_⟩⟩
  · rw [← breaks.length_map, htexts, List.length_replicate]
  · have hmem := List.mem_map_of_mem (f := (·.text)) ht
    rw [htexts] at hmem
    exact List.eq_of_mem_replicate hmem

/-- A class declaration starts with its keyword, and nothing else in it counts. -/
theorem exists_tokens_classDeclaration (name : Text) :
    ∃ keyword rest, (b.classDeclaration name).tokens = b.tokens ++ keyword :: rest ∧
      keyword.kind = .classWord ∧ ∀ t ∈ rest, t.kind = .whitespace ∨ t.kind = .other := by
  simp only [classDeclaration, newline, push, List.append_assoc, List.singleton_append]
  exact ⟨_, _, rfl, rfl, by simp⟩

end Builder

namespace Stream

/-- A line break is white space that is one line end. -/
theorem isLineBreak_iff {s : Stream} {t : Token} :
    s.isLineBreak t ↔ t.kind = .whitespace ∧ t.text = s.eol := by
  simp [isLineBreak]

/-- A stream of an open tag, a documentation comment, line ends, a class-like keyword, and further
tokens among which there is neither an open tag nor documentation. -/
structure Documents (s : Stream) (docs breaks : List Token) : Prop where
  exists_tokens : ∃ opening keyword rest,
    s.tokens = opening :: (docs ++ (breaks ++ keyword :: rest)) ∧
      opening.kind = .openTag ∧ keyword.kind.isClassLike ∧
      ∀ t ∈ rest, t.kind ≠ .openTag ∧ t.kind ≠ .docComment
  docs_ne_nil : docs ≠ []
  docs_kind : ∀ t ∈ docs, t.kind = .docComment
  isLineBreak : ∀ t ∈ breaks, s.isLineBreak t

variable {s : Stream} {docs breaks : List Token}

namespace Documents

/-- The kinds of the tokens, part by part. -/
theorem kindAt?_cases (h : s.Documents docs breaks) (i : Nat) :
    (i = 0 ∧ s.kindAt? i = some .openTag) ∨
    (0 < i ∧ i ≤ docs.length ∧ s.kindAt? i = some .docComment) ∨
    (docs.length < i ∧ i ≤ docs.length + breaks.length ∧ s.kindAt? i = some .whitespace) ∨
    (i = docs.length + breaks.length + 1 ∧ ∃ k, s.kindAt? i = some k ∧ k.isClassLike) ∨
    (docs.length + breaks.length + 1 < i ∧
      ∀ k ∈ s.kindAt? i, k ≠ .openTag ∧ k ≠ .docComment) := by
  obtain ⟨opening, keyword, rest, htokens, hopening, hkeyword, hrest⟩ := h.exists_tokens
  have hbreaks : ∀ t ∈ breaks, t.kind = .whitespace := fun t ht =>
    (isLineBreak_iff.mp (h.isLineBreak t ht)).1
  have hget {ts : List Token} {k : Kind} (hts : ∀ t ∈ ts, t.kind = k) {j : Nat}
      (hj : j < ts.length) : ts[j]?.map (·.kind) = some k := by
    rw [List.getElem?_eq_getElem hj, Option.map_some, hts _ (List.getElem_mem hj)]
  unfold kindAt?
  rw [htokens]
  -- The position is cut down part by part: open tag, comment, line breaks, keyword and the rest.
  cases i with
  | zero => exact .inl ⟨rfl, congrArg some hopening⟩
  | succ i =>
    right
    rw [List.getElem?_cons_succ]
    by_cases hdocs : i < docs.length
    · rw [List.getElem?_append_left hdocs]
      exact .inl ⟨by omega, by omega, hget h.docs_kind hdocs⟩
    · right
      rw [List.getElem?_append_right (by omega)]
      by_cases hbreak : i - docs.length < breaks.length
      · rw [List.getElem?_append_left hbreak]
        exact .inl ⟨by omega, by omega, hget hbreaks hbreak⟩
      · right
        rw [List.getElem?_append_right (by omega)]
        cases hj : i - docs.length - breaks.length with
        | zero => exact .inl ⟨by omega, keyword.kind, rfl, hkeyword⟩
        | succ j =>
          refine .inr ⟨by omega, fun k hk => ?_⟩
          obtain ⟨t, ht, rfl⟩ := Option.map_eq_some_iff.mp hk
          exact hrest t (List.mem_of_getElem? ht)

/-- The comment is the only one, between the open tag and the first class-like keyword. -/
theorem loneComment (h : s.Documents docs breaks) :
    s.LoneComment 1 docs.length (docs.length + breaks.length + 1) := by
  have hpos : 0 < docs.length := List.length_pos_of_ne_nil h.docs_ne_nil
  refine
    { openTag := fun i => ?_
      docComment := fun i => ?_
      nonempty := hpos
      spaceBefore := fun i hlow hhigh => by omega
      modifiersBehind := fun i hlow hhigh => .inl ?_
      keyword := ⟨by omega, ?_⟩
      firstKeyword := fun i hi => ?_ }
  · have := h.kindAt?_cases i
    grind [Kind.isClassLike]
  · have := h.kindAt?_cases i
    grind [Kind.isClassLike]
  · have := h.kindAt?_cases i
    grind
  · have := h.kindAt?_cases (docs.length + breaks.length + 1)
    grind
  · have := h.kindAt?_cases i
    grind [Kind.isClassLike]

/-- The tokens of the comment stand behind the open tag. -/
theorem slice_docs (h : s.Documents docs breaks) : s.slice 1 (docs.length + 1) = docs := by
  obtain ⟨opening, keyword, rest, htokens, -⟩ := h.exists_tokens
  rw [slice, htokens, List.take_succ_cons, List.take_left, List.drop_succ_cons, List.drop_zero]

/-- The line breaks stand behind the comment. -/
theorem slice_breaks (h : s.Documents docs breaks) :
    s.slice (docs.length + 1) (docs.length + breaks.length + 1) = breaks := by
  obtain ⟨opening, keyword, rest, htokens, -⟩ := h.exists_tokens
  rw [slice, htokens, ← List.append_assoc, List.take_succ_cons, ← List.length_append,
    List.take_left, List.drop_succ_cons, List.drop_left]

/-- All the line ends behind the comment count. -/
theorem breaksBeforeAbstract_eq (h : s.Documents docs breaks) :
    s.breaksBeforeAbstract docs.length (docs.length + breaks.length + 1) = breaks.length := by
  have hkind : ∀ t ∈ breaks, decide (t.kind ≠ .abstractWord) = true := by
    intro t ht
    simp [(isLineBreak_iff.mp (h.isLineBreak t ht)).1]
  rw [breaksBeforeAbstract, h.slice_breaks, List.takeWhile_eq_self_iff.mpr hkind,
    List.countP_eq_length]
  exact h.isLineBreak

/-- Unless exactly one line end follows it, the comment is the file's. -/
theorem fileBlock_eq (h : s.Documents docs breaks) (hbreaks : breaks.length ≠ 1) (marker : Text) :
    s.fileBlock 0 marker = .found ⟨1, docs.length, docs.flatMap (·.text)⟩ := by
  rw [h.loneComment.fileBlock_eq, h.breaksBeforeAbstract_eq, if_neg hbreaks, block, textBetween,
    h.slice_docs]

end Documents

/-- The check of the file comment visits the one open tag. -/
theorem LoneComment.positions_openTag {first last c : Nat} (h : s.LoneComment first last c) :
    s.positions (· = .openTag) = [0] := by
  have hnext : s.next? (· = .openTag) 0 = some 0 :=
    next?_eq_some_iff.mpr ⟨Nat.le_refl 0, by simp [(h.openTag 0).mpr rfl], fun j _ hj => by omega⟩
  have hnone : s.next? (· = .openTag) (0 + 1) = none := by
    refine next?_eq_none_iff.mpr fun j hj => ?_
    have hne : s.kindAt? j ≠ some .openTag := fun hkind => by
      have := (h.openTag j).mp hkind
      omega
    cases hkind : s.kindAt? j with
    | none => rfl
    | some k => simpa [hkind] using hne
  have hrest : s.positionsFrom (· = .openTag) (0 + 1) = [] := by
    rw [positionsFrom]
    split
    · rfl
    · next hsome => cases hnone.symm.trans hsome
  rw [positions, positionsFrom]
  split
  · next hsome => cases hnext.symm.trans hsome
  · next i hsome =>
    cases hnext.symm.trans hsome
    rw [hrest]

end Stream

/-- The stream of an open tag, a documentation comment, `n` line ends and a class. -/
def documentedClass (eol text : Text) (n : Nat) (name : Text) : Stream :=
  ((((({} : Builder).withEol eol).openTag.docComment text).newlines n).classDeclaration name).build

/-- A documented class is written with the line end asked for. -/
theorem eol_documentedClass (eol text : Text) (n : Nat) (name : Text) :
    (documentedClass eol text n name).eol = eol := by
  rw [documentedClass, Builder.newlines_eq_foldl]
  exact (Builder.eol_foldl_push _ _ _).trans (Builder.eol_foldl_push _ _ _)

/-- The parts of the stream are those that were given to the builder. -/
theorem exists_documents_documentedClass (eol : Text) {text : Text} (hne : text ≠ []) (n : Nat)
    (name : Text) :
    ∃ docs breaks, (documentedClass eol text n name).Documents docs breaks ∧
      docs.flatMap (·.text) = text ∧ breaks.length = n := by
  obtain ⟨docs, hdocs, htext, hdocsKind⟩ :=
    (({} : Builder).withEol eol).openTag.exists_tokens_docComment text
  obtain ⟨breaks, hbreaks, hlength, hbreak⟩ :=
    ((({} : Builder).withEol eol).openTag.docComment text).exists_tokens_newlines n
  obtain ⟨keyword, rest, hclass, hkeyword, hrest⟩ :=
    (((({} : Builder).withEol eol).openTag.docComment text).newlines n)
      |>.exists_tokens_classDeclaration name
  refine ⟨docs, breaks, ?_, htext, hlength⟩
  refine
    { exists_tokens := ⟨⟨.openTag, "<?php" ++ eol, 1⟩, keyword, rest, ?_, rfl, ?_, ?_⟩
      docs_ne_nil := ?_
      docs_kind := hdocsKind
      isLineBreak := fun t ht => ?_ }
  · rw [hbreaks, hdocs, List.append_assoc, List.append_assoc] at hclass
    exact hclass
  · rw [hkeyword]
    rfl
  · intro t ht
    rcases hrest t ht with hkind | hkind <;> simp [hkind]
  · rintro rfl
    exact hne htext.symm
  · rw [Stream.isLineBreak_iff, eol_documentedClass]
    obtain ⟨hkind, htextEq⟩ := hbreak t ht
    exact ⟨hkind, htextEq.trans (Builder.eol_foldl_push _ _ _)⟩

end DocCheck
