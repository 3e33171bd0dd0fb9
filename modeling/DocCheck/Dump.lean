import DocCheck.Json.Container
import DocCheck.Json.Value
import DocCheck.Stream.Basic

/-!
# Token dumps

A token dump is a JSON text with the line separator and the tokens of a stream. Streams and tokens
are objects, or lists of their fields in order; members that are not known are passed over, and
the line separator is a line feed where none is given.
-/

namespace DocCheck.Dump

open Json (Reader Fault)
open Json.Reader

/-- The kind with a name. -/
def kindNamed (name : Text) : Except Fault Kind :=
  match Kind.ofName? name with
  | some k => .ok k
  | none => .error (.mismatch (.unknownName name (Kind.all.map Kind.name)))

/-- Reads the name of a kind behind its opening quote. -/
def kindName : Reader Kind := fun t =>
  match stringBody t with
  | .error fault => .error fault
  | .ok (name, t) => (kindNamed name).map fun k => (k, t)

/-- The text behind the null that stands for the content of a kind. -/
def noContent (t : Text) : Except Fault Text :=
  match nextChar? t with
  | none => .error .ended
  | some (c, t) => if c = 'n' then word "ull" t else .error (unexpected "unit" c t)

/-- The text behind a kind that is written as an object with the name of the kind as its key. -/
def endKind (t : Text) : Except Fault Text :=
  match colon t with
  | .error fault => .error fault
  | .ok t =>
    match noContent t with
    | .error fault => .error fault
    | .ok t =>
      match nextChar? t with
      | none => .error .ended
      | some (c, t) => if c = '\x7d' then .ok t else .error .malformed

/-- Reads an object with the name of a kind as key and null as value, behind its bracket. -/
def kindObject : Reader Kind := fun t =>
  match nextChar? t with
  | none => .error .ended
  | some (c, t) =>
    if c = '"' then
      match kindName t with
      | .error fault => .error fault
      | .ok (k, t) => (endKind t).map fun t => (k, t)
    else .error .malformed

/-- Reads a kind: its name, or an object with its name. -/
def kind : Reader Kind := fun t =>
  match nextChar? t with
  | none => .error .ended
  | some (c, t) =>
    if c = '"' then kindName t else if c = '\x7b' then kindObject t else .error .malformed

/-- Reads a line number. -/
def line : Reader Nat := fun t =>
  match nextChar? t with
  | none => .error .ended
  | some (c, t) =>
    if c = '-' || c.isDigit then
      match number (c = '-') (if c = '-' then t else c :: t) with
      | .error fault => .error fault
      | .ok (.natural n, t) => .ok (n, t)
      | .ok (.negative n, _) => .error (.mismatch (.wrongValue (.negative n) "usize"))
      | .ok (found, _) => .error (.mismatch (.wrongType found "usize"))
    else .error (unexpected "usize" c t)

/-- Reads a text. -/
def text : Reader Text := Json.Reader.string "a string"

/-- The name of a kind is quoted, so it takes characters. -/
theorem kindName_consumes : Consumes kindName := by
  intro t k rest h
  unfold kindName at h
  split at h
  · simp at h
  · next name t' hstring =>
    cases hname : kindNamed name with
    | error fault => simp [hname, Except.map] at h
    | ok k' =>
      simp only [hname, Except.map, Except.ok.injEq, Prod.mk.injEq] at h
      exact h.2 ▸ stringBody_consumes hstring

/-- The empty content of a kind takes characters. -/
theorem length_noContent {t rest : Text} (h : noContent t = .ok rest) :
    rest.length < t.length := by
  unfold noContent at h
  split at h
  · simp at h
  · next hnext =>
    have := length_nextChar? hnext
    split at h
    · have := length_word h
      omega
    · simp at h

/-- The end of a kind that is written as an object takes a brace. -/
theorem length_endKind {t rest : Text} (h : endKind t = .ok rest) : rest.length < t.length := by
  unfold endKind at h
  split at h
  · simp at h
  · next hcolon =>
    have := length_colon hcolon
    split at h
    · simp at h
    · next hcontent =>
      have := length_noContent hcontent
      split at h
      · simp at h
      · next hnext =>
        have := length_nextChar? hnext
        split at h
        · simp only [Except.ok.injEq] at h
          rw [← h]
          omega
        · simp at h

/-- A kind that is written as an object takes characters. -/
theorem kindObject_consumes : Consumes kindObject := by
  intro t k rest h
  unfold kindObject at h
  split at h
  · simp at h
  · next c t' hnext =>
    have := length_nextChar? hnext
    split at h
    · split at h
      · simp at h
      · next k' t'' hname =>
        have := kindName_consumes hname
        cases hend : endKind t'' with
        | error fault => simp [hend, Except.map] at h
        | ok rest' =>
          simp only [hend, Except.map, Except.ok.injEq, Prod.mk.injEq] at h
          have := length_endKind hend
          rw [← h.2]
          omega
    · simp at h

/-- A kind takes characters, whichever way it is written. -/
theorem kind_consumes : Consumes kind := by
  intro t k rest h
  unfold kind at h
  split at h
  · simp at h
  · next c t' hnext =>
    have := length_nextChar? hnext
    split at h
    · have := kindName_consumes h
      omega
    · split at h
      · have := kindObject_consumes h
        omega
      · simp at h

/-- A line number takes characters. -/
theorem line_consumes : Consumes line := by
  intro t n rest h
  unfold line at h
  split at h
  · simp at h
  · next c t' hnext =>
    have := length_nextChar? hnext
    split at h
    · split at h
      · simp at h
      · next hnumber =>
        simp only [Except.ok.injEq, Prod.mk.injEq] at h
        have hlt := number_consumes _ hnumber
        rw [← h.2]
        split at hlt
        · omega
        · simp only [List.length_cons] at hlt
          omega
      · simp at h
      · simp at h
    · simp at h

/-- The text of a token takes characters. -/
theorem text_consumes : Consumes text := string_consumes _

/-- The value of a field that has to be there. -/
def present {α : Type} (name : Text) : Option α → Except Fault α
  | some a => .ok a
  | none => .error (.mismatch (.missingField name))

/-- Reads the value of a field that may be given only once. -/
def once {α σ : Type} (name : Text) (old : Option α) (read : Reader α) (store : α → σ) :
    Reader σ := fun t =>
  if old.isSome then .error (.mismatch (.duplicateField name))
  else
    match afterColon read t with
    | .error fault => .error fault
    | .ok (a, t) => .ok (store a, t)

/-- A member that may appear once takes what its value takes. -/
theorem once_consumes {α σ : Type} {name : Text} {old : Option α} {read : Reader α}
    {store : α → σ} (hread : Consumes read) : Consumes (once name old read store) := by
  intro t st rest h
  unfold once at h
  split at h
  · simp at h
  · split at h
    · simp at h
    · next hvalue =>
      simp only [Except.ok.injEq, Prod.mk.injEq] at h
      exact h.2 ▸ afterColon_consumes hread hvalue

/-- Passes over the value of a field that is not known. -/
def ignored {σ : Type} (st : σ) : Reader σ := fun t =>
  match colon t with
  | .error fault => .error fault
  | .ok t => (skip t).map fun t => (st, t)

/-- A member that is skipped takes characters. -/
theorem ignored_consumes {σ : Type} {st : σ} : Consumes (ignored st) := by
  intro t st' rest h
  unfold ignored at h
  split at h
  · simp at h
  · next t' hcolon =>
    have := length_colon hcolon
    cases hskip : skip t' with
    | error fault => simp [hskip, Except.map] at h
    | ok t'' =>
      have := length_skip hskip
      simp only [hskip, Except.map, Except.ok.injEq, Prod.mk.injEq] at h
      rw [← h.2]
      omega

/-- The fields of a token that have been read. -/
structure TokenFields where
  kind : Option Kind := none
  text : Option Text := none
  line : Option Nat := none

/-- Reads a member of a token. -/
def tokenMember (key : Text) (f : TokenFields) : Reader TokenFields :=
  if key = "kind" then once key f.kind kind fun k => { f with kind := some k }
  else if key = "text" then once key f.text text fun t => { f with text := some t }
  else if key = "line" then once key f.line line fun n => { f with line := some n }
  else ignored f

/-- Every member of a token takes characters, so a token has finitely many. -/
theorem tokenMember_consumes (key : Text) (f : TokenFields) : Consumes (tokenMember key f) := by
  unfold tokenMember
  split
  · exact once_consumes kind_consumes
  · split
    · exact once_consumes text_consumes
    · split
      · exact once_consumes line_consumes
      · exact ignored_consumes

/-- The token of the fields that have been read. -/
def TokenFields.token (f : TokenFields) : Except Fault Token := do
  return ⟨← present "kind" f.kind, ← present "text" f.text, ← present "line" f.line⟩

/-- What a list of the fields of a token has to be. -/
def tokenList : Text := "struct Token with 3 elements"

/-- Reads a token that is written as a list of its fields. -/
def tokenElements : Reader Token := fun t =>
  match fieldElement tokenList 0 kind t with
  | .error fault => .error fault
  | .ok (k, t) =>
    match fieldElement tokenList 1 text t with
    | .error fault => .error fault
    | .ok (s, t) =>
      match fieldElement tokenList 2 line t with
      | .error fault => .error fault
      | .ok (n, t) => (endElements t).map fun t => (⟨k, s, n⟩, t)

/-- Reads a token. -/
def token : Reader Token := fun t =>
  match nextChar? t with
  | none => .error .ended
  | some (c, t) =>
    if c = '[' then tokenElements t
    else if c = '\x7b' then
      match members tokenMember tokenMember_consumes true {} t with
      | .error fault => .error fault
      | .ok (f, t) => f.token.map fun token => (token, t)
    else .error (unexpected "struct Token" c t)

/-- A token that is written as a list takes characters. -/
theorem tokenElements_consumes : Consumes tokenElements := by
  intro t token rest h
  unfold tokenElements at h
  split at h
  · simp at h
  · next hkind =>
    have := fieldElement_consumes kind_consumes hkind
    split at h
    · simp at h
    · next htext =>
      have := fieldElement_consumes text_consumes htext
      split at h
      · simp at h
      · next n t₃ hline =>
        have := fieldElement_consumes line_consumes hline
        cases hend : endElements t₃ with
        | error fault => simp [hend, Except.map] at h
        | ok t₄ =>
          have := length_endElements hend
          simp only [hend, Except.map, Except.ok.injEq, Prod.mk.injEq] at h
          rw [← h.2]
          omega

/-- A token takes characters, so a list has finitely many. -/
theorem token_consumes : Consumes token := by
  intro t tok rest h
  unfold token at h
  split at h
  · simp at h
  · next hnext =>
    have := length_nextChar? hnext
    split at h
    · have := tokenElements_consumes h
      omega
    · split at h
      · split at h
        · simp at h
        · next f t' hmembers =>
          have := members_consumes hmembers
          cases htoken : f.token with
          | error fault => simp [htoken, Except.map] at h
          | ok tok' =>
            simp only [htoken, Except.map, Except.ok.injEq, Prod.mk.injEq] at h
            rw [← h.2]
            omega
      · simp at h

/-- Reads the tokens of a stream. -/
def tokens : Reader (List Token) := Json.Reader.list token token_consumes

/-- The fields of a stream that have been read. -/
structure StreamFields where
  eol : Option Text := none
  tokens : Option (List Token) := none

/-- The line separator of a stream that does not name one. -/
def defaultEol : Text := "\n"

/-- Reads a member of a stream. -/
def streamMember (key : Text) (f : StreamFields) : Reader StreamFields :=
  if key = "eol" then once key f.eol text fun t => { f with eol := some t }
  else if key = "tokens" then once key f.tokens tokens fun ts => { f with tokens := some ts }
  else ignored f

/-- Every member of a stream takes characters, so a stream has finitely many. -/
theorem streamMember_consumes (key : Text) (f : StreamFields) :
    Consumes (streamMember key f) := by
  unfold streamMember
  split
  · exact once_consumes text_consumes
  · split
    · exact once_consumes list_consumes
    · exact ignored_consumes

/-- The stream of the fields that have been read. -/
def StreamFields.stream (f : StreamFields) : Except Fault Stream := do
  return ⟨f.eol.getD defaultEol, ← present "tokens" f.tokens⟩

/-- What a list of the fields of a stream has to be. -/
def streamList : Text := "struct TokenStream with 2 elements"

/-- Reads a stream that is written as a list of its fields. -/
def streamElements : Reader Stream := fun t =>
  match nextElement true t with
  | .error fault => .error fault
  | .ok (false, _) => .error (.mismatch (.wrongLength 1 streamList))
  | .ok (true, t) =>
    match text t with
    | .error fault => .error fault
    | .ok (eol, t) =>
      match fieldElement streamList 1 tokens t with
      | .error fault => .error fault
      | .ok (ts, t) => (endElements t).map fun t => (⟨eol, ts⟩, t)

/-- Reads a stream. -/
def stream : Reader Stream := fun t =>
  match nextChar? t with
  | none => .error .ended
  | some (c, t) =>
    if c = '[' then streamElements t
    else if c = '\x7b' then
      match members streamMember streamMember_consumes true {} t with
      | .error fault => .error fault
      | .ok (f, t) => f.stream.map fun s => (s, t)
    else .error (unexpected "struct TokenStream" c t)

/-- The stream of a token dump. Nothing but white space may follow it. -/
def read (t : Text) : Except Fault Stream :=
  match stream t with
  | .error fault => .error fault
  | .ok (s, t) => if (nextChar? t).isNone then .ok s else .error .malformed

/-- A token as a JSON object. -/
def tokenJson (t : Token) : Json :=
  .object [("kind", .string t.kind.name), ("text", .string t.text), ("line", .number t.line)]

/-- A stream as a JSON object. -/
def streamJson (s : Stream) : Json :=
  .object [("eol", .string s.eol), ("tokens", .list (s.tokens.map tokenJson))]

/-- The token dump of a stream. -/
def write (s : Stream) : Text := (streamJson s).text

end DocCheck.Dump
