import DocCheck.Dump
import DocCheck.Proofs.Json.Skipping
import DocCheck.Proofs.Json.Writing
import Mathlib.Algebra.Group.Nat.Defs

/-!
# Token dumps are read as the streams that they stand for

The texts that stand for a stream are described by the JSON grammar: objects for the stream and its
tokens, their members in any order and with any white space, further members that nobody asks for,
and no line separator where it is a line feed. The dump that is written is one of them, and each of
them is read as the stream.

The members of an object are read one by one, in whatever order they come, so what has been read so
far is told by the keys alone: a field is filled as soon as its key has been seen.
-/

namespace DocCheck.Dump

open Json (Reader Blank Padded Delimited Starts StringText NaturalText ObjectText Bracketed IsValue
  Spells)
open Json.Reader

section Texts

/-- How often a key is given among the members of an object. -/
def timesGiven (members : List (Text × Text)) (key : Text) : Nat :=
  (members.map Prod.fst).count key

/-- The keys of a token, in the order of its fields. -/
def tokenKeys : List Text := ["kind", "text", "line"]

/-- The keys of a stream, in the order of its fields. -/
def streamKeys : List Text := ["eol", "tokens"]

/-- The members of the object of a token, among them any that are not known. -/
inductive TokenMember (token : Token) : Text × Text → Prop
  | kind {t : Text} : StringText token.kind.name t → TokenMember token ("kind", t)
  | text {t : Text} : StringText token.text t → TokenMember token ("text", t)
  | line {t : Text} : NaturalText token.line t → TokenMember token ("line", t)
  | other {key t : Text} : key ∉ tokenKeys → IsValue t → TokenMember token (key, t)

/-- An object that stands for a token: each field is given once. -/
def TokenText (token : Token) (t : Text) : Prop :=
  ∃ members, ObjectText members t ∧ (∀ m ∈ members, TokenMember token m) ∧
    ∀ key ∈ tokenKeys, timesGiven members key = 1

/-- The members of the object of a stream, among them any that are not known. -/
inductive StreamMember (s : Stream) : Text × Text → Prop
  | eol {t : Text} : StringText s.eol t → StreamMember s ("eol", t)
  | tokens {t : Text} : Bracketed TokenText '[' ']' s.tokens t → StreamMember s ("tokens", t)
  | other {key t : Text} : key ∉ streamKeys → IsValue t → StreamMember s (key, t)

/-- An object that stands for a stream. The line separator may be left out if it is a line feed. -/
def StreamText (s : Stream) (t : Text) : Prop :=
  ∃ members, ObjectText members t ∧ (∀ m ∈ members, StreamMember s m) ∧
    timesGiven members "tokens" = 1 ∧
    (timesGiven members "eol" = 1 ∨ timesGiven members "eol" = 0 ∧ s.eol = "\n")

/-- A whole text that stands for a stream, with white space around it. -/
def DumpText (s : Stream) (t : Text) : Prop := ∃ u, StreamText s u ∧ Padded u t

end Texts

section Fields

variable {α σ : Type}

/-- The value of a field once its key has been seen. -/
def field (seen : List Text) (key : Text) (a : α) : Option α :=
  if key ∈ seen then some a else none

/-- A field whose key has been seen has its value. -/
theorem field_of_mem {seen : List Text} {key : Text} (h : key ∈ seen) (a : α) :
    field seen key a = some a := if_pos h

/-- A field whose key has not been seen has none. -/
theorem field_of_not_mem {seen : List Text} {key : Text} (h : key ∉ seen) (a : α) :
    field seen key a = none := if_neg h

/-- Another key leaves a field as it is. -/
theorem field_concat {seen : List Text} {key other : Text} (h : key ≠ other) (a : α) :
    field (seen ++ [other]) key a = field seen key a := by
  simp only [field, List.mem_append, List.mem_singleton, h, or_false]

/-- The key that was seen last has its value. -/
theorem field_concat_self (seen : List Text) (key : Text) (a : α) :
    field (seen ++ [key]) key a = some a := field_of_mem (by simp) a

/-- A field of which the key has not been seen is read into its place. -/
theorem once_field {seen : List Text} {key : Text} {read : Reader α} {store : α → σ} {a : α}
    {t blank back rest : Text} (hnew : key ∉ seen) (hread : Reads read t a) (hblank : Blank blank)
    (hback : Blank back) (hrest : Delimited rest) :
    once key (field seen key a) read store (blank ++ ':' :: (back ++ (t ++ rest))) =
      .ok (store a, rest) := by
  have hvalue : afterColon read (blank ++ ':' :: (back ++ (t ++ rest))) = .ok (a, rest) := by
    rw [afterColon, colon_blank hblank]
    exact hread back rest hback hrest
  simp only [once, field_of_not_mem hnew, hvalue, Option.isSome_none]
  rfl

/-- Passing over a member takes its value and leaves the state. -/
theorem ignored_eq {st : σ} {t blank back rest : Text} (h : IsValue t) (hblank : Blank blank)
    (hback : Blank back) (hrest : Delimited rest) :
    ignored st (blank ++ ':' :: (back ++ (t ++ rest))) = .ok (st, rest) := by
  rw [ignored, colon_blank hblank]
  simp only [skip_isValue h hback hrest]
  rfl

/-- If each member is read from the state of the keys before it to that of one key more, the members
of an object are read one after the other to the state of all their keys, provided that no known
key comes twice. -/
theorem run_of_step {member : Text → σ → Reader σ} {state : List Text → σ} {known : List Text}
    {IsMember : Text × Text → Prop}
    (hstep : ∀ seen m, IsMember m → (m.1 ∈ known → m.1 ∉ seen) →
      ReadsMember member m (state seen) (state (seen ++ [m.1])))
    {ms : List (Text × Text)} (hms : ∀ m ∈ ms, IsMember m) (seen : List Text)
    (hcount : ∀ key ∈ known, (seen ++ ms.map Prod.fst).count key ≤ 1) :
    Run member (state seen) ms (state (seen ++ ms.map Prod.fst)) := by
  induction ms generalizing seen with
  | nil =>
    rw [List.map_nil, List.append_nil]
    exact .nil
  | cons m ms ih =>
    have hnew : m.1 ∈ known → m.1 ∉ seen := by
      intro hkey hseen
      have hle := hcount m.1 hkey
      have hpos := List.count_pos_iff.mpr hseen
      rw [List.map_cons, List.count_append, List.count_cons_self] at hle
      omega
    have hmove : seen ++ (m :: ms).map Prod.fst = seen ++ [m.1] ++ ms.map Prod.fst := by simp
    rw [hmove] at hcount ⊢
    exact .cons (hstep seen m (hms m List.mem_cons_self) hnew)
      (ih (fun m hm => hms m (List.mem_cons_of_mem _ hm)) (seen ++ [m.1]) hcount)

/-- The members of an object are read to the state of all their keys. -/
theorem members_of_step {member : Text → σ → Reader σ}
    (hmember : ∀ key st, Consumes (member key st)) {state : List Text → σ} {known : List Text}
    {IsMember : Text × Text → Prop}
    (hstep : ∀ seen m, IsMember m → (m.1 ∈ known → m.1 ∉ seen) →
      ReadsMember member m (state seen) (state (seen ++ [m.1])))
    {ms : List (Text × Text)} {t : Text} (h : ObjectText ms t) (hms : ∀ m ∈ ms, IsMember m)
    (hgiven : ∀ key ∈ known, timesGiven ms key ≤ 1) :
    ∃ inner, t = '\x7b' :: inner ∧ ∀ rest,
      members member hmember true (state []) (inner ++ rest) =
        .ok (state (ms.map Prod.fst), rest) :=
  members_objectText h (run_of_step hstep hms [] hgiven)

/-- A key that is given once is given. -/
theorem mem_of_timesGiven {members : List (Text × Text)} {key : Text}
    (h : timesGiven members key = 1) : key ∈ members.map Prod.fst := by
  apply List.count_pos_iff.mp
  rw [← timesGiven, h]
  exact Nat.one_pos

end Fields

section Tokens

variable {token : Token}

/-- A kind is read from its name. -/
theorem reads_kind {k : Kind} {t : Text} (h : StringText k.name t) : Reads kind t k := by
  intro front rest hfront _
  obtain ⟨pieces, hpieces, rfl⟩ := h
  simp only [List.cons_append, List.append_assoc, List.nil_append]
  rw [kind, nextChar?_blank_cons hfront (by decide)]
  simp only [kindName, stringBody_pieces hpieces rest, kindNamed, Kind.ofName?_name]
  rfl

/-- A line number is read if it fits into 64 bits. -/
theorem reads_line {n : Nat} {t : Text} (h : NaturalText n t) (hn : n < 2 ^ 64) :
    Reads line t n := by
  intro front rest hfront hrest
  have hnumber := number_naturalText h hn hrest
  obtain ⟨c, t, rfl⟩ := List.exists_cons_of_ne_nil h.1.1.1
  have hdigit : c.isDigit = true := h.1.1.2 c List.mem_cons_self
  have hblank : isBlankChar c = false := isBlankChar_eq_false (opened?_of_isDigit hdigit).2
  have hminus : c ≠ '-' := by
    rintro rfl
    cases hdigit
  rw [List.cons_append] at hnumber ⊢
  rw [line, nextChar?_blank_cons hfront hblank]
  simp only [hdigit, hminus, decide_false, Bool.or_true, if_true, if_false, hnumber]

/-- The text of a token is read from any spelling of it. -/
theorem reads_text {s t : Text} (h : StringText s t) : Reads text t s := reads_string _ h

/-- The fields of a token of which the keys have been seen. -/
def tokenFields (token : Token) (seen : List Text) : TokenFields :=
  ⟨field seen "kind" token.kind, field seen "text" token.text, field seen "line" token.line⟩

/-- Reading a member fills the field of its key and no other. -/
theorem readsMember_tokenMember (hline : token.line < 2 ^ 64) (seen : List Text) (m : Text × Text)
    (hm : TokenMember token m) (hnew : m.1 ∈ tokenKeys → m.1 ∉ seen) :
    ReadsMember tokenMember m (tokenFields token seen) (tokenFields token (seen ++ [m.1])) := by
  intro blank back rest hblank hback hrest
  obtain ⟨key, value⟩ := m
  dsimp only at hnew ⊢
  -- A known key was not seen before, so its field is still free; it is set, and the others stay.
  cases hm with
  | kind hkind =>
    rw [tokenMember, if_pos rfl, tokenFields,
      once_field (hnew (by decide)) (reads_kind hkind) hblank hback hrest, tokenFields,
      field_concat_self, field_concat (by decide), field_concat (by decide)]
  | text htext =>
    rw [tokenMember, if_neg (by decide), if_pos rfl, tokenFields,
      once_field (hnew (by decide)) (reads_text htext) hblank hback hrest, tokenFields,
      field_concat_self, field_concat (by decide), field_concat (by decide)]
  | line hnumber =>
    rw [tokenMember, if_neg (by decide), if_neg (by decide), if_pos rfl, tokenFields,
      once_field (hnew (by decide)) (reads_line hnumber hline) hblank hback hrest, tokenFields,
      field_concat_self, field_concat (by decide), field_concat (by decide)]
  | other hkey hvalue =>
    simp only [tokenKeys, List.mem_cons, List.not_mem_nil, or_false, not_or] at hkey
    obtain ⟨hkind, htext, hnumber⟩ := hkey
    rw [tokenMember, if_neg hkind, if_neg htext, if_neg hnumber,
      ignored_eq hvalue hblank hback hrest]
    simp only [tokenFields, field_concat (Ne.symm hkind), field_concat (Ne.symm htext),
      field_concat (Ne.symm hnumber)]

/-- Fields of which all keys have been seen are those of the token. -/
theorem token_tokenFields {seen : List Text} (h : ∀ key ∈ tokenKeys, key ∈ seen) :
    (tokenFields token seen).token = .ok token := by
  simp only [tokenKeys, List.forall_mem_cons] at h
  obtain ⟨hkind, htext, hline, -⟩ := h
  simp only [tokenFields, field_of_mem hkind, field_of_mem htext, field_of_mem hline]
  rfl

/-- A token is read from any text of it, as an object or as a list. -/
theorem reads_token (hline : token.line < 2 ^ 64) {t : Text} (h : TokenText token t) :
    Reads Dump.token t token := by
  intro front rest hfront _
  obtain ⟨ms, hobject, hmembers, hgiven⟩ := h
  obtain ⟨inner, rfl, hread⟩ := members_of_step tokenMember_consumes
    (readsMember_tokenMember hline) hobject hmembers fun key hkey => (hgiven key hkey).le
  have hfields : members tokenMember tokenMember_consumes true {} (inner ++ rest) = _ := hread rest
  have htoken : (tokenFields token (ms.map Prod.fst)).token = .ok token :=
    token_tokenFields fun key hkey => mem_of_timesGiven (hgiven key hkey)
  rw [List.cons_append, Dump.token, nextChar?_blank_cons hfront (by decide)]
  simp only [hfields, htoken]
  rfl

/-- An object starts with no delimiter. -/
theorem starts_objectText {ms : List (Text × Text)} {t : Text} (h : ObjectText ms t) :
    Starts t := by
  obtain ⟨inner, rfl, -⟩ := h
  exact ⟨'\x7b', inner ++ ['\x7d'], rfl, by decide⟩

/-- The tokens are read in their order. -/
theorem reads_tokens {tokens : List Token} (hlines : ∀ token ∈ tokens, token.line < 2 ^ 64)
    {t : Text} (h : Bracketed TokenText '[' ']' tokens t) : Reads Dump.tokens t tokens := by
  have hlist : Reads Dump.tokens t (tokens.map id) := by
    refine reads_list h ?_ ?_
    · rintro token _ t ⟨members, hobject, -⟩
      exact starts_objectText hobject
    · intro token htoken t ht
      exact reads_token (hlines token htoken) ht
  rwa [List.map_id] at hlist

end Tokens

section Streams

variable {s : Stream}

/-- The fields of a stream of which the keys have been seen. -/
def streamFields (s : Stream) (seen : List Text) : StreamFields :=
  ⟨field seen "eol" s.eol, field seen "tokens" s.tokens⟩

/-- One member of a stream: a known one sets its field, any other changes nothing. -/
theorem readsMember_streamMember (hlines : ∀ token ∈ s.tokens, token.line < 2 ^ 64)
    (seen : List Text) (m : Text × Text) (hm : StreamMember s m)
    (hnew : m.1 ∈ streamKeys → m.1 ∉ seen) :
    ReadsMember streamMember m (streamFields s seen) (streamFields s (seen ++ [m.1])) := by
  intro blank back rest hblank hback hrest
  obtain ⟨key, value⟩ := m
  dsimp only at hnew ⊢
  cases hm with
  | eol heol =>
    rw [streamMember, if_pos rfl, streamFields,
      once_field (hnew (by decide)) (reads_text heol) hblank hback hrest, streamFields,
      field_concat_self, field_concat (by decide)]
  | tokens htokens =>
    rw [streamMember, if_neg (by decide), if_pos rfl, streamFields,
      once_field (hnew (by decide)) (reads_tokens hlines htokens) hblank hback hrest, streamFields,
      field_concat_self, field_concat (by decide)]
  | other hkey hvalue =>
    simp only [streamKeys, List.mem_cons, List.not_mem_nil, or_false, not_or] at hkey
    obtain ⟨heol, htokens⟩ := hkey
    rw [streamMember, if_neg heol, if_neg htokens, ignored_eq hvalue hblank hback hrest]
    simp only [streamFields, field_concat (Ne.symm heol), field_concat (Ne.symm htokens)]

/-- The line separator is that of the stream, whether or not it was given. -/
theorem stream_streamFields {seen : List Text} (htokens : "tokens".toList ∈ seen)
    (heol : "eol".toList ∈ seen ∨ s.eol = "\n") : (streamFields s seen).stream = .ok s := by
  obtain ⟨eol, tokens⟩ := s
  simp only [StreamFields.stream, streamFields, field_of_mem htokens, present]
  by_cases hseen : "eol".toList ∈ seen
  · rw [field_of_mem hseen]
    rfl
  · rw [field_of_not_mem hseen]
    rcases heol with heol | heol
    · exact absurd heol hseen
    · subst heol
      rfl

/-- A stream is read from any text of it, as an object or as a list. -/
theorem reads_stream (hlines : ∀ token ∈ s.tokens, token.line < 2 ^ 64) {t : Text}
    (h : StreamText s t) : Reads stream t s := by
  intro front rest hfront _
  obtain ⟨ms, hobject, hmembers, htokens, heol⟩ := h
  have hgiven : ∀ key ∈ streamKeys, timesGiven ms key ≤ 1 := by
    simp only [streamKeys, List.forall_mem_cons]
    refine ⟨?_, htokens.le, fun _ h => absurd h List.not_mem_nil⟩
    rcases heol with heol | ⟨heol, -⟩
    · exact heol.le
    · rw [heol]
      exact Nat.zero_le 1
  obtain ⟨inner, rfl, hread⟩ := members_of_step streamMember_consumes
    (readsMember_streamMember hlines) hobject hmembers hgiven
  have hfields : members streamMember streamMember_consumes true {} (inner ++ rest) = _ :=
    hread rest
  have hstream : (streamFields s (ms.map Prod.fst)).stream = .ok s :=
    stream_streamFields (mem_of_timesGiven htokens) (heol.imp mem_of_timesGiven And.right)
  rw [List.cons_append, stream, nextChar?_blank_cons hfront (by decide)]
  simp only [hfields, hstream]
  rfl

/-- A text that stands for a stream is read as that stream. -/
theorem read_dumpText (hlines : ∀ token ∈ s.tokens, token.line < 2 ^ 64) {t : Text}
    (h : DumpText s t) : read t = .ok s := by
  obtain ⟨u, hu, front, back, hfront, hback, rfl⟩ := h
  have hread := reads_stream hlines hu front back hfront hback.delimited
  rw [List.append_assoc, read, hread]
  simp only [nextChar?_of_blank hback]
  rfl

end Streams

section Written

/-- An object is spelled by its members, one for one. -/
theorem forall₂_of_spells {ms : List (Text × Json)} {t : Text} (h : Spells (.object ms) t) :
    ∃ members, ObjectText members t ∧
      List.Forall₂ (fun m m' => m.1 = m'.1 ∧ Spells m.2 m'.2) ms members := by
  obtain _ | _ | _ | _ | _ | _ | @⟨_, members, _, hobject, hkeys, hspells⟩ := h
  refine ⟨members, hobject, ?_⟩
  clear hobject
  induction ms generalizing members with
  | nil =>
    obtain rfl := List.map_eq_nil_iff.mp hkeys.symm
    exact .nil
  | cons m ms ih =>
    cases members with
    | nil => cases hkeys
    | cons m' members =>
      simp only [List.map_cons, List.cons.injEq] at hkeys
      simp only [List.map_cons, List.zip_cons_cons, List.forall_mem_cons] at hspells
      exact .cons ⟨hkeys.1, hspells.1⟩ (ih hkeys.2 hspells.2)

/-- The spellings of a string value are the texts of the string. -/
theorem stringText_of_spells {s t : Text} (h : Spells (.string s) t) : StringText s t := by
  obtain _ | _ | _ | _ | hs := h
  exact hs

/-- The spellings of a number are its decimal texts. -/
theorem naturalText_of_spells {n : Nat} {t : Text} (h : Spells (.number n) t) :
    NaturalText n t := by
  obtain _ | _ | _ | hn := h
  exact hn

/-- The object of a token stands for the token, however it is spelled. -/
theorem tokenText_of_spells {token : Token} {t : Text} (h : Spells (tokenJson token) t) :
    TokenText token t := by
  obtain ⟨members, hobject, hmembers⟩ := forall₂_of_spells h
  obtain ⟨⟨_, k⟩, _, ⟨rfl, hkind⟩, hafterKind, rfl⟩ := List.forall₂_cons_left_iff.mp hmembers
  obtain ⟨⟨_, x⟩, _, ⟨rfl, htext⟩, hafterText, rfl⟩ := List.forall₂_cons_left_iff.mp hafterKind
  obtain ⟨⟨_, l⟩, _, ⟨rfl, hline⟩, hafterLine, rfl⟩ := List.forall₂_cons_left_iff.mp hafterText
  obtain rfl := List.forall₂_nil_left_iff.mp hafterLine
  refine ⟨_, hobject, ?_, ?_⟩
  · simp only [List.forall_mem_cons]
    exact ⟨.kind (stringText_of_spells hkind), .text (stringText_of_spells htext),
      .line (naturalText_of_spells hline), fun _ h => absurd h List.not_mem_nil⟩
  · simp only [tokenKeys, List.forall_mem_cons]
    exact ⟨rfl, rfl, rfl, fun _ h => absurd h List.not_mem_nil⟩

/-- The object of a stream stands for the stream, however it is spelled. -/
theorem streamText_of_spells {s : Stream} {t : Text} (h : Spells (streamJson s) t) :
    StreamText s t := by
  obtain ⟨members, hobject, hmembers⟩ := forall₂_of_spells h
  obtain ⟨⟨_, e⟩, _, ⟨rfl, heol⟩, hafterEol, rfl⟩ := List.forall₂_cons_left_iff.mp hmembers
  obtain ⟨⟨_, ts⟩, _, ⟨rfl, htokens⟩, hafterTokens, rfl⟩ :=
    List.forall₂_cons_left_iff.mp hafterEol
  obtain rfl := List.forall₂_nil_left_iff.mp hafterTokens
  obtain _ | _ | _ | _ | _ | ⟨hlist, hlength, hspells⟩ := htokens
  have htexts := List.forall₂_iff_zip.mpr ⟨hlength, fun h => hspells _ h⟩
  have hitems := (List.forall₂_map_left_iff.mp htexts).imp fun _ _ => tokenText_of_spells
  refine ⟨_, hobject, ?_, rfl, .inl rfl⟩
  simp only [List.forall_mem_cons]
  exact ⟨.eol (stringText_of_spells heol), .tokens (hlist.of_forall₂ hitems),
    fun _ h => absurd h List.not_mem_nil⟩

/-- Every spelling of the value that stands for a stream is a dump of it. -/
theorem dumpText_of_denotes {s : Stream} {t : Text} (h : Json.Denotes t (streamJson s)) :
    DumpText s t := by
  obtain ⟨u, hu, hpadded⟩ := h
  exact ⟨u, streamText_of_spells hu, hpadded⟩

/-- What is written for a stream is a dump of it. -/
theorem dumpText_write (s : Stream) : DumpText s (write s) := by
  have hdenotes := Json.denotes_text (streamJson s) Json.blank_nil
  rw [List.append_nil] at hdenotes
  exact dumpText_of_denotes hdenotes

end Written

/-- The dump of a stream with line numbers of 64 bits is read as that stream, however the JSON text
is laid out: with the members of every object in any order, with any white space between the parts
and any spelling of the characters in strings, with further members that are not known, and without
the line separator where it is a line feed. The dump that is written is such a text. -/
theorem read_eq_stream (s : Stream) (hlines : ∀ token ∈ s.tokens, token.line < 2 ^ 64) :
    DumpText s (write s) ∧ (∀ t, Json.Denotes t (streamJson s) → DumpText s t) ∧
      ∀ t, DumpText s t → read t = .ok s :=
  ⟨dumpText_write s, fun _ => dumpText_of_denotes, fun _ => read_dumpText hlines⟩

section Example

/-- An object with its members on lines of their own. -/
def objectOf (members : List (Text × Text)) : Text :=
  Json.bracketed '\x7b' '\x7d' 0 (members.map fun m => Json.stringText m.1 ++ ": " ++ m.2)

/-- The compact object with some members is one of their texts. -/
theorem objectText_objectOf (members : List (Text × Text)) :
    ObjectText members (objectOf members) := by
  refine Json.bracketed_items (List.forall₂_map_right_iff.mpr ?_) _ _ 0
  exact List.forall₂_same.mpr fun m _ => Json.memberText_written m.1 m.2

/-- A token with the largest line number and a character beyond the basic plane. -/
def emojiToken : Token := ⟨.docComment, "😀\n", 18446744073709551615⟩

/-- The members of the token in another order, with one that is not known. -/
def emojiMembers : List (Text × Text) :=
  [("line", "18446744073709551615"), ("column", "null"), ("text", "\"\\uD83d\\ude00\\n\""),
    ("kind", "\"doc_comment\"")]

/-- The dump of a stream of that token, without the line separator. -/
def emojiDump : Text :=
  '\t' :: objectOf
    [("version", "true"), ("tokens", Json.bracketed '[' ']' 0 [objectOf emojiMembers])]

/-- A surrogate pair and a short escape spell a text of two characters. -/
theorem stringText_emoji : StringText "😀\n" "\"\\uD83d\\ude00\\n\"" := by
  have hhigh : Json.FourDigits (0xD800 + 0x3d) "D83d" :=
    .mk (a := 13) (b := 8) (c := 3) (d := 13) ⟨by decide, .inr rfl⟩ ⟨by decide, .inl rfl⟩
      ⟨by decide, .inl rfl⟩ ⟨by decide, .inl rfl⟩
  have hlow : Json.FourDigits (0xDC00 + 0x200) "de00" :=
    .mk (a := 13) (b := 14) (c := 0) (d := 0) ⟨by decide, .inl rfl⟩ ⟨by decide, .inl rfl⟩
      ⟨by decide, .inl rfl⟩ ⟨by decide, .inl rfl⟩
  have hpair : Json.CharText '😀' "\\uD83d\\ude00" :=
    .pair (by decide) (by decide) (by decide) hhigh hlow
  exact ⟨["\\uD83d\\ude00", "\\n"], .cons hpair (.cons (.short (by decide)) .nil), rfl⟩

/-- The members of the token come in another order, with one that is not known. -/
theorem tokenText_emoji : TokenText emojiToken (objectOf emojiMembers) := by
  refine ⟨emojiMembers, objectText_objectOf _, ?_, by decide⟩
  simp only [emojiMembers, List.forall_mem_cons]
  refine ⟨.line ?_, .other (by decide) (.scalar .null), .text stringText_emoji, .kind ?_, ?_⟩
  · exact Json.naturalText_ofNat 18446744073709551615
  · exact Json.stringText_stringText "doc_comment"
  · exact fun _ h => absurd h List.not_mem_nil

/-- The dump is read as the stream of the token with a line feed. -/
theorem read_eq_stream_emojiDump :
    (∀ token ∈ [emojiToken], token.line < 2 ^ 64) ∧ DumpText ⟨"\n", [emojiToken]⟩ emojiDump ∧
      read emojiDump = .ok ⟨"\n", [emojiToken]⟩ := by
  have hlines : ∀ token ∈ [emojiToken], token.line < 2 ^ 64 := by decide
  have htokens := Json.bracketed_items (.cons tokenText_emoji .nil) '[' ']' 0
  have hstream : StreamText ⟨"\n", [emojiToken]⟩ emojiDump.tail := by
    refine ⟨_, objectText_objectOf _, ?_, rfl, .inr ⟨rfl, rfl⟩⟩
    simp only [List.forall_mem_cons]
    exact ⟨.other (by decide) (.scalar .true), .tokens htokens,
      fun _ h => absurd h List.not_mem_nil⟩
  have hblank : Blank ['\t'] := by
    intro c hc
    rw [List.mem_singleton.mp hc]
    decide
  have hdump : DumpText ⟨"\n", [emojiToken]⟩ emojiDump :=
    ⟨_, hstream, ['\t'], [], hblank, Json.blank_nil, (List.append_nil _).symm⟩
  exact ⟨hlines, hdump, (read_eq_stream ⟨"\n", [emojiToken]⟩ hlines).2.2 _ hdump⟩

end Example

end DocCheck.Dump
