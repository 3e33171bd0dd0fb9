import DocCheck.Proofs.Stream.Builder

/-!
# One token for each physical line

A documentation comment is appended in rounds, each of which takes the text up to the next line end
and counts the line ends in it. Every round takes one line end, so that the rounds come to an end,
the lines of the tokens follow one another, and the tokens are the pieces between the line ends of
the whole comment. None of this asks what the line end is, only that there is one.
-/

namespace DocCheck.Builder

open Text

/-- One round of appending a comment: the text up to the next line end, and with it, becomes a
token. There is no round if no line end is left. -/
def round? (b : Builder) (text : Text) : Option (Builder × Text) :=
  (text.cut? b.eol).map fun (line, rest) => (b.push .docComment (line ++ b.eol), rest)

/-- The builder and the text that is left after `n` rounds. -/
def rounds? : Nat → Builder → Text → Option (Builder × Text)
  | 0, b, text => some (b, text)
  | n + 1, b, text => (b.round? text).bind fun (b, rest) => rounds? n b rest

/-- The tokens of a comment: its physical lines, on lines that follow one another. -/
def docTokens (b : Builder) (text : Text) : List Token :=
  (text.lines b.eol).mapIdx fun i l => ⟨.docComment, l, b.line + i⟩

/-- A comment is cut into its lines, one token for each. -/
theorem map_text_docTokens (b : Builder) (text : Text) :
    (b.docTokens text).map (·.text) = text.lines b.eol := by
  apply List.ext_getElem?
  intro i
  rw [docTokens, List.getElem?_map, List.getElem?_mapIdx, Option.map_map]
  exact Option.map_id_apply

section Rounds

variable {b : Builder} {text line rest : Text}

/-- A comment with a line end is appended by a round and what is left. -/
theorem docComment_of_cut? (heol : b.eol ≠ []) (h : text.cut? b.eol = some (line, rest)) :
    b.docComment text = (b.push .docComment (line ++ b.eol)).docComment rest := by
  rw [docComment, lines_of_cut? heol h, List.foldl_cons]
  rfl

/-- A comment without line ends is appended as one token, if there is anything to append. -/
theorem docComment_of_cut?_eq_none (h : text.cut? b.eol = none) :
    b.docComment text = if text.isEmpty then b else b.push .docComment text := by
  rw [docComment, lines_of_cut?_eq_none h]
  split <;> rfl

/-- A round goes to the next line. -/
theorem line_push_line (heol : b.eol ≠ []) (h : text.cut? b.eol = some (line, rest)) :
    (b.push .docComment (line ++ b.eol)).line = b.line + 1 := by
  rw [push, count_line heol h]

/-- A comment is appended round by round, until no line end is left. -/
@[elab_as_elim] theorem round_induction {motive : Builder → Text → Prop}
    (last : ∀ b text, b.eol ≠ [] → text.cut? b.eol = none → motive b text)
    (next : ∀ b text line rest, b.eol ≠ [] → text.cut? b.eol = some (line, rest) →
      motive (b.push .docComment (line ++ b.eol)) rest → motive b text)
    (b : Builder) (text : Text) (heol : b.eol ≠ []) : motive b text := by
  generalize heq : b.eol = eol at heol
  induction text using cut?_induction heol generalizing b with
  | last text hcut =>
    subst heq
    exact last b text heol hcut
  | line text line rest hcut ih =>
    subst heq
    exact next b text line rest heol hcut (ih _ rfl)

/-- The rounds come to an end: there are as many as line ends are counted, and what is left then is
the last token. -/
theorem exists_rounds (heol : b.eol ≠ []) (text : Text) :
    ∃ b' rest, b.rounds? (text.count b.eol) text = some (b', rest) ∧ b'.round? rest = none ∧
      b.docComment text = if rest.isEmpty then b' else b'.push .docComment rest := by
  refine round_induction (fun b text heol hcut => ?_) (fun b text line rest heol hcut ih => ?_) b
    text heol
  · refine ⟨b, text, ?_, ?_, docComment_of_cut?_eq_none hcut⟩
    · rw [count_of_cut?_eq_none heol hcut, rounds?]
    · rw [round?, hcut, Option.map_none]
  · obtain ⟨b', left, hrounds, hnone, hend⟩ := ih
    refine ⟨b', left, ?_, hnone, ?_⟩
    · rw [count_of_cut? heol hcut, rounds?, round?, hcut]
      exact hrounds
    · rw [docComment_of_cut? heol hcut, hend]

/-- Appending a comment appends the tokens of its lines. -/
theorem tokens_docComment (heol : b.eol ≠ []) (text : Text) :
    (b.docComment text).tokens = b.tokens ++ b.docTokens text := by
  unfold docTokens
  refine round_induction (fun b text heol hcut => ?_) (fun b text line rest heol hcut ih => ?_) b
    text heol
  · rw [docComment_of_cut?_eq_none hcut, lines_of_cut?_eq_none hcut]
    split
    · exact (List.append_nil _).symm
    · rfl
  · rw [docComment_of_cut? heol hcut, ih, line_push_line heol hcut, lines_of_cut? heol hcut,
      List.mapIdx_cons, push, List.append_assoc, List.singleton_append]
    simp only [Nat.add_assoc, Nat.add_comm 1, Nat.add_zero]

/-- The builder goes on by the line ends of the comment. -/
theorem line_docComment (heol : b.eol ≠ []) (text : Text) :
    (b.docComment text).line = b.line + text.count b.eol := by
  refine round_induction (fun b text heol hcut => ?_) (fun b text line rest heol hcut ih => ?_) b
    text heol
  · rw [docComment_of_cut?_eq_none hcut]
    split
    · rw [count_of_cut?_eq_none heol hcut, Nat.add_zero]
    · rfl
  · rw [docComment_of_cut? heol hcut, ih, line_push_line heol hcut]
    change b.line + 1 + rest.count b.eol = b.line + text.count b.eol
    rw [count_of_cut? heol hcut]
    omega

end Rounds

/-- A comment is appended as one token for each physical line. The rounds end after as many as the
comment has line ends, which is the largest number of line ends between parts that make up the
comment. The tokens that are appended are not empty and make up the comment; each is a piece with a
line end behind it, up to the last piece, which is a token as it is if it is not empty; and their
lines follow one another from the line of the builder, which goes on by the number of line ends. -/
theorem docComment_tokenizes {b : Builder} (heol : b.eol ≠ []) (text : Text) :
    (∃ b' rest, b.rounds? (text.count b.eol) text = some (b', rest) ∧ b'.round? rest = none ∧
      b.docComment text = if rest.isEmpty then b' else b'.push .docComment rest) ∧
    (∃ docs, (b.docComment text).tokens = b.tokens ++ docs ∧
      (∀ t ∈ docs, t.kind = .docComment ∧ t.text ≠ []) ∧
      docs.flatMap (·.text) = text ∧
      (∀ i, docs[i]?.map (·.text) =
        if i < text.count b.eol then (text.splitOn b.eol)[i]?.map (· ++ b.eol)
        else (text.splitOn b.eol)[i]?.filter (!·.isEmpty)) ∧
      ∀ i t, docs[i]? = some t → t.line = b.line + i) ∧
    (b.docComment text).line = b.line + text.count b.eol ∧
    (∃ parts, join b.eol parts = text ∧ parts.length = text.count b.eol + 1) ∧
    ∀ parts, join b.eol parts = text → parts.length ≤ text.count b.eol + 1 := by
  refine ⟨exists_rounds heol text, ⟨_, tokens_docComment heol text, ?_, ?_, ?_, ?_⟩,
    line_docComment heol text, ⟨_, join_splitOn heol text, length_splitOn heol text⟩, ?_⟩
  · intro t ht
    obtain ⟨i, hi, rfl⟩ := List.mem_mapIdx.mp ht
    exact ⟨rfl, ne_nil_of_mem_lines heol (List.getElem_mem hi)⟩
  · rw [List.flatMap_def, map_text_docTokens, flatten_lines]
  · intro i
    rw [← List.getElem?_map, map_text_docTokens, getElem?_lines heol]
  · intro i t ht
    rw [docTokens, List.getElem?_mapIdx] at ht
    obtain ⟨l, -, rfl⟩ := Option.map_eq_some_iff.mp ht
    rfl
  · rintro parts rfl
    exact length_le_count_join heol parts

/-- A builder whose line end can overlap itself. -/
def dashed : Builder := (({} : Builder).withEol "--").openTag

/-- Of three dashes the first two are the line end. -/
theorem docComment_tokenizes_dashed :
    dashed.eol ≠ [] ∧
    (∃ docs, (dashed.docComment "a---b--").tokens = dashed.tokens ++ docs ∧
      docs.map (·.text) = ["a--".toList, "-b--".toList] ∧
      ∀ i t, docs[i]? = some t → t.line = 2 + i) ∧
    (dashed.docComment "a---b--").line = 4 := by
  have heol : dashed.eol ≠ [] := by decide
  obtain ⟨-, ⟨docs, htokens, -, -, htexts, hlines⟩, hline, -⟩ :=
    docComment_tokenizes heol "a---b--"
  refine ⟨heol, ⟨docs, htokens, List.ext_getElem? fun i => ?_, hlines⟩, hline⟩
  rw [List.getElem?_map, htexts]
  rcases i with _ | _ | _ | i <;> rfl

end DocCheck.Builder
