import DocCheck.Json.Skip

/-!
# Reading JSON values of a wanted form

Readers for strings, for the members of an object and for the elements of a list. A value of
another form is read to its end before it is reported, so a fault inside it comes first; only
lists and objects are reported by their opening bracket.
-/

namespace DocCheck.Json.Reader

/-- The value that starts with a character and a text. -/
def describe (c : Char) (t : Text) : Except Fault Found :=
  match c with
  | 'n' => (word "ull" t).map fun _ => .null
  | 't' => (word "rue" t).map fun _ => .boolean true
  | 'f' => (word "alse" t).map fun _ => .boolean false
  | '"' => (stringBody t).map fun p => .string p.1
  | '[' => .ok .sequence
  | '\x7b' => .ok .map
  | '-' => (number true t).map (·.1)
  | c => if c.isDigit then (number false (c :: t)).map (·.1) else .error .malformed

/-- The fault of a value that starts with a character and a text, where another was wanted. -/
def unexpected (wanted : Text) (c : Char) (t : Text) : Fault :=
  match describe c t with
  | .ok found => .mismatch (.wrongType found wanted)
  | .error fault => fault

/-- Reads a string. -/
def string (wanted : Text) : Reader Text := fun t =>
  match nextChar? t with
  | none => .error .ended
  | some (c, t) => if c = '"' then stringBody t else .error (unexpected wanted c t)

/-- A string takes at least its quotes. -/
theorem string_consumes (wanted : Text) : Consumes (string wanted) := by
  intro t s rest h
  unfold string at h
  split at h
  · simp at h
  · next hnext =>
    have := length_nextChar? hnext
    split at h
    · have := stringBody_consumes h
      omega
    · simp at h

/-- Reads what follows a colon. -/
def afterColon {α : Type} (read : Reader α) : Reader α := fun t =>
  match colon t with
  | .error fault => .error fault
  | .ok t => read t

/-- A value behind a colon takes what the value takes and more. -/
theorem afterColon_consumes {α : Type} {read : Reader α} (hread : Consumes read) :
    Consumes (afterColon read) := by
  intro t a rest h
  unfold afterColon at h
  split at h
  · simp at h
  · next hcolon =>
    have := length_colon hcolon
    have := hread h
    omega

/-- Reads the key of the next member of an object, or the closing bracket. -/
def nextKey (first : Bool) (t : Text) : Except Fault (Option Text × Text) :=
  let key (next : Option (Char × Text)) : Except Fault (Option Text × Text) :=
    match next with
    | none => .error .ended
    | some (c, t) =>
      if c = '"' then (stringBody t).map fun (s, t) => (some s, t) else .error .malformed
  match nextChar? t with
  | none => .error .ended
  | some (c, t') =>
    if c = '\x7d' then .ok (none, t')
    else if first then key (some (c, t'))
    else if c = ',' then key (nextChar? t')
    else .error .malformed

/-- The next key, and the brace that ends an object in its place, take characters. -/
theorem length_nextKey {first : Bool} {t rest : Text} {key : Option Text}
    (h : nextKey first t = .ok (key, rest)) : rest.length < t.length := by
  have hstring : ∀ {t' : Text}, (stringBody t').map (fun (s, t) => (some s, t)) = .ok (key, rest) →
      rest.length < t'.length := by
    intro t' h'
    cases hbody : stringBody t' with
    | error fault => simp [hbody, Except.map] at h'
    | ok p =>
      simp only [hbody, Except.map, Except.ok.injEq, Prod.mk.injEq] at h'
      exact h'.2 ▸ stringBody_consumes hbody
  -- Each branch ends in the closing brace or in a string, with or without a comma in front.
  simp only [nextKey] at h
  split at h
  · simp at h
  · next hnext =>
    have hlt := length_nextChar? hnext
    split at h
    · simp only [Except.ok.injEq, Prod.mk.injEq] at h
      rw [← h.2]
      omega
    · split at h
      · split at h
        · have := hstring h
          omega
        · simp at h
      · split at h
        · split at h
          · simp at h
          · next hkey =>
            have := length_nextChar? hkey
            split at h
            · have := hstring h
              omega
            · simp at h
        · simp at h

/-- Reads the members of an object behind its opening bracket. Each member changes a state, from
the text behind its key on. -/
def members {σ : Type} (member : Text → σ → Reader σ)
    (hmember : ∀ key st, Consumes (member key st)) (first : Bool) (st : σ) (t : Text) :
    Except Fault (σ × Text) :=
  match hkey : nextKey first t with
  | .error fault => .error fault
  | .ok (none, t') => .ok (st, t')
  | .ok (some key, t') =>
    match hvalue : member key st t' with
    | .error fault => .error fault
    | .ok (st', t'') =>
      have := length_nextKey hkey
      have := hmember key st hvalue
      members member hmember false st' t''
termination_by t.length

/-- The members of an object take at least the closing brace. -/
theorem members_consumes {σ : Type} {member : Text → σ → Reader σ}
    {hmember : ∀ key st, Consumes (member key st)} {first : Bool} {st : σ} :
    Consumes (members member hmember first st) := by
  intro t a rest h
  fun_induction members member hmember first st t with
  | case1 => simp at h
  | case2 first st t t' hkey =>
    simp only [Except.ok.injEq, Prod.mk.injEq] at h
    exact h.2 ▸ length_nextKey hkey
  | case3 => simp at h
  | case4 first st t key t' hkey st' t'' hvalue hlt hlt' ih =>
    have := ih h
    omega

/-- Finds the next element of a list, or passes the closing bracket. -/
def nextElement (first : Bool) (t : Text) : Except Fault (Bool × Text) :=
  match nextChar? t with
  | none => .error .ended
  | some (c, t') =>
    if c = ']' then .ok (false, t')
    else if first then .ok (true, c :: t')
    else if c = ',' then
      match nextChar? t' with
      | none => .error .ended
      | some (c, t'') => if c = ']' then .error .malformed else .ok (true, c :: t'')
    else .error .malformed

/-- Looking for the next element gives nothing back. -/
theorem length_nextElement {first found : Bool} {t rest : Text}
    (h : nextElement first t = .ok (found, rest)) : rest.length ≤ t.length := by
  unfold nextElement at h
  split at h
  · simp at h
  · next hnext =>
    have := length_nextChar? hnext
    split at h
    · simp only [Except.ok.injEq, Prod.mk.injEq] at h
      rw [← h.2]
      omega
    · split at h
      · simp only [Except.ok.injEq, Prod.mk.injEq] at h
        rw [← h.2, List.length_cons]
        omega
      · split at h
        · split at h
          · simp at h
          · next hafter =>
            have := length_nextChar? hafter
            split at h
            · simp at h
            · simp only [Except.ok.injEq, Prod.mk.injEq] at h
              rw [← h.2, List.length_cons]
              omega
        · simp at h

/-- The end of a list takes its bracket. -/
theorem length_nextElement_end {first : Bool} {t rest : Text}
    (h : nextElement first t = .ok (false, rest)) : rest.length < t.length := by
  unfold nextElement at h
  split at h
  · simp at h
  · next hnext =>
    have := length_nextChar? hnext
    repeat' split at h
    all_goals simp at h
    rw [← h]
    omega

/-- Reads the elements of a list behind its opening bracket. -/
def elements {α : Type} (element : Reader α) (helement : Consumes element) (first : Bool)
    (t : Text) : Except Fault (List α × Text) :=
  match hnext : nextElement first t with
  | .error fault => .error fault
  | .ok (false, t') => .ok ([], t')
  | .ok (true, t') =>
    match hvalue : element t' with
    | .error fault => .error fault
    | .ok (a, t'') =>
      have := length_nextElement hnext
      have := helement hvalue
      (elements element helement false t'').map fun (as, rest) => (a :: as, rest)
termination_by t.length

/-- The elements of a list take at least the closing bracket. -/
theorem elements_consumes {α : Type} {element : Reader α} {helement : Consumes element}
    {first : Bool} : Consumes (elements element helement first) := by
  intro t as rest h
  fun_induction elements element helement first t generalizing as rest with
  | case1 => simp at h
  | case2 first t t' hnext =>
    simp only [Except.ok.injEq, Prod.mk.injEq] at h
    exact h.2 ▸ length_nextElement_end hnext
  | case3 => simp at h
  | case4 first t t' hnext a t'' hvalue hle hlt ih =>
    cases hrest : elements element helement false t'' with
    | error fault => simp [hrest, Except.map] at h
    | ok p =>
      simp only [hrest, Except.map, Except.ok.injEq, Prod.mk.injEq] at h
      have := ih hrest
      rw [← h.2]
      omega

/-- Reads a list. -/
def list {α : Type} (element : Reader α) (helement : Consumes element) : Reader (List α) :=
  fun t =>
    match nextChar? t with
    | none => .error .ended
    | some (c, t) =>
      if c = '[' then elements element helement true t
      else .error (unexpected "a sequence" c t)

/-- A list takes at least its brackets. -/
theorem list_consumes {α : Type} {element : Reader α} {helement : Consumes element} :
    Consumes (list element helement) := by
  intro t as rest h
  unfold list at h
  split at h
  · simp at h
  · next hnext =>
    have := length_nextChar? hnext
    split at h
    · have := elements_consumes h
      omega
    · simp at h

/-- Reads the next element of a list that stands for a record with a fixed number of fields, of
which `index` have been read. -/
def fieldElement {α : Type} (wanted : Text) (index : Nat) (read : Reader α) : Reader α := fun t =>
  match nextElement (index = 0) t with
  | .error fault => .error fault
  | .ok (false, _) => .error (.mismatch (.wrongLength index wanted))
  | .ok (true, t) => read t

/-- A field that is written as an element of a list takes characters. -/
theorem fieldElement_consumes {α : Type} {wanted : Text} {index : Nat} {read : Reader α}
    (hread : Consumes read) : Consumes (fieldElement wanted index read) := by
  intro t a rest h
  unfold fieldElement at h
  split at h
  · simp at h
  · simp at h
  · next hnext =>
    have := length_nextElement hnext
    have := hread h
    omega

/-- The text behind the closing bracket of such a list. -/
def endElements (t : Text) : Except Fault Text :=
  match nextChar? t with
  | none => .error .ended
  | some (c, t) => if c = ']' then .ok t else .error .malformed

/-- The end of a list that has no further elements takes its bracket. -/
theorem length_endElements {t rest : Text} (h : endElements t = .ok rest) :
    rest.length < t.length := by
  unfold endElements at h
  split at h
  · simp at h
  · next hnext =>
    split at h
    · simp only [Except.ok.injEq] at h
      exact h ▸ length_nextChar? hnext
    · simp at h

end DocCheck.Json.Reader
