import DocCheck.Proofs.Json.Skipping

/-!
# A JSON text stands for one value

The grammar lets a value be written in many ways, but a text can be taken in one way only. The first
character tells what form the value has, a string or a number is read off directly, and a list or
an object is cut into the texts of its items by passing over them one after the other.
-/

namespace DocCheck.Json

section Forms

/-- The forms of values, which differ in their first characters. -/
inductive Form where
  | null
  | bool
  | number
  | string
  | list
  | object

/-- The form of a value. -/
def form : Json → Form
  | null => .null
  | bool _ => .bool
  | number _ => .number
  | string _ => .string
  | list _ => .list
  | object _ => .object

/-- The form of the values that start with a character. -/
def Form.ofChar : Char → Form
  | 'n' => .null
  | 't' | 'f' => .bool
  | '"' => .string
  | '[' => .list
  | '\x7b' => .object
  | _ => .number

/-- Values that start with a digit are numbers. -/
theorem Form.ofChar_of_isDigit {c : Char} (h : c.isDigit = true) : Form.ofChar c = .number := by
  unfold Form.ofChar
  split
  all_goals first | rfl | cases h

/-- The first character of a text tells the form of its value. -/
theorem Spells.form_eq_ofChar {v : Json} {t : Text} (h : Spells v t) :
    ∃ c ∈ t.head?, v.form = Form.ofChar c := by
  cases h with
  | null => exact ⟨'n', rfl, rfl⟩
  | true => exact ⟨'t', rfl, rfl⟩
  | false => exact ⟨'f', rfl, rfl⟩
  | number hn =>
    obtain ⟨c, rest, rfl⟩ := List.exists_cons_of_ne_nil hn.1.1.1
    exact ⟨c, rfl, (Form.ofChar_of_isDigit (hn.1.1.2 c List.mem_cons_self)).symm⟩
  | string hs =>
    obtain ⟨pieces, -, rfl⟩ := hs
    exact ⟨'"', rfl, rfl⟩
  | list hlist _ _ =>
    obtain ⟨inner, rfl, -⟩ := hlist
    exact ⟨'[', rfl, rfl⟩
  | object hobject _ _ =>
    obtain ⟨inner, rfl, -⟩ := hobject
    exact ⟨'\x7b', rfl, rfl⟩

/-- Values that are spelled alike are of one form. -/
theorem Spells.form_eq {v w : Json} {t : Text} (h : Spells v t) (h' : Spells w t) :
    v.form = w.form := by
  obtain ⟨c, hc, hv⟩ := h.form_eq_ofChar
  obtain ⟨c', hc', hw⟩ := h'.form_eq_ofChar
  obtain rfl : c = c' := Option.some.inj (hc.symm.trans hc')
  rw [hv, hw]

end Forms

end DocCheck.Json

namespace DocCheck.Json.Reader

/-- Takes the text of a value off the front. -/
def rawValue : Reader Text := fun t =>
  (skip t).map fun rest =>
    ((skipBlank t).take ((skipBlank t).length - rest.length), rest)

/-- Appends a member with the text of its value. -/
def rawMember (key : Text) (ms : List (Text × Text)) : Reader (List (Text × Text)) := fun t =>
  (afterColon rawValue t).map fun (value, rest) => (ms ++ [(key, value)], rest)

/-- Taking the text of a value takes characters. -/
theorem rawValue_consumes : Consumes rawValue := by
  intro t raw rest h
  cases hskip : skip t with
  | error fault => simp [rawValue, hskip, Except.map] at h
  | ok rest' =>
    simp only [rawValue, hskip, Except.map, Except.ok.injEq, Prod.mk.injEq] at h
    exact h.2 ▸ length_skip hskip

/-- Collecting a member takes characters. -/
theorem rawMember_consumes (key : Text) (ms : List (Text × Text)) :
    Consumes (rawMember key ms) := by
  intro t ms' rest h
  cases hvalue : afterColon rawValue t with
  | error fault => simp [rawMember, hvalue, Except.map] at h
  | ok p =>
    simp only [rawMember, hvalue, Except.map, Except.ok.injEq, Prod.mk.injEq] at h
    exact h.2 ▸ afterColon_consumes rawValue_consumes hvalue

/-- The text of a value is taken as it is. -/
theorem reads_rawValue {t : Text} (h : IsValue t) : Reads rawValue t t := by
  intro front rest hfront hrest
  have hskip : skipBlank (front ++ (t ++ rest)) = t ++ rest := by
    obtain ⟨c, t, rfl, hc⟩ := starts_isValue h
    refine dropWhile_append_of_head? (fun c hc => isBlankChar_iff.mpr (hfront c hc)) ?_
    rintro c' hc'
    obtain rfl : c = c' := Option.some.inj hc'
    exact isBlankChar_eq_false hc
  rw [rawValue, skip_isValue h hfront hrest, hskip]
  simp [Except.map]

/-- One member is added to those collected. -/
theorem readsMember_rawMember {m : Text × Text} (h : IsValue m.2) (ms : List (Text × Text)) :
    ReadsMember rawMember m ms (ms ++ [m]) := by
  intro blank back rest hblank hback hrest
  rw [rawMember, afterColon, colon_blank hblank]
  simp only [reads_rawValue h back rest hback hrest]
  rfl

/-- All members are collected in their order. -/
theorem run_rawMember {ms : List (Text × Text)} (h : ∀ m ∈ ms, IsValue m.2)
    (before : List (Text × Text)) : Run rawMember before ms (before ++ ms) := by
  induction ms generalizing before with
  | nil =>
    rw [List.append_nil]
    exact .nil
  | cons m ms ih =>
    have hrun := ih (fun m hm => h m (List.mem_cons_of_mem _ hm)) (before ++ [m])
    rw [List.append_assoc, List.singleton_append] at hrun
    exact .cons (readsMember_rawMember (h m List.mem_cons_self) before) hrun

/-- The members of an object can be told from its text. -/
theorem members_rawMember {ms : List (Text × Text)} {t : Text} (h : ObjectText ms t)
    (hvalues : ∀ m ∈ ms, IsValue m.2) :
    ∃ inner, t = '\x7b' :: inner ∧
      ∀ rest, members rawMember rawMember_consumes true [] (inner ++ rest) = .ok (ms, rest) :=
  members_objectText h (run_rawMember hvalues [])

/-- The elements of a list can be told from its text. -/
theorem list_rawValue {elements : List Text} {t : Text} (h : ListText elements t)
    (hvalues : ∀ e ∈ elements, IsValue e) :
    list rawValue rawValue_consumes t = .ok (elements, []) := by
  have hlist : Reads (list rawValue rawValue_consumes) t (elements.map id) := by
    refine reads_list h ?_ ?_
    · rintro e he t rfl
      exact starts_isValue (hvalues e he)
    · rintro e he t rfl
      exact reads_rawValue (hvalues e he)
  have := hlist [] [] blank_nil blank_nil.delimited
  rwa [List.nil_append, List.append_nil, List.map_id] at this

end DocCheck.Json.Reader

namespace DocCheck.Json

open Reader

/-- The elements of a list are determined by its text. -/
theorem listText_unique {elements elements' : List Text} {t : Text} (h : ListText elements t)
    (h' : ListText elements' t) (hvalues : ∀ e ∈ elements, IsValue e)
    (hvalues' : ∀ e ∈ elements', IsValue e) : elements = elements' := by
  have := (list_rawValue h hvalues).symm.trans (list_rawValue h' hvalues')
  exact (Prod.mk.inj (Except.ok.inj this)).1

/-- The members of an object are determined by its text. -/
theorem objectText_unique {ms ms' : List (Text × Text)} {t : Text} (h : ObjectText ms t)
    (h' : ObjectText ms' t) (hvalues : ∀ m ∈ ms, IsValue m.2)
    (hvalues' : ∀ m ∈ ms', IsValue m.2) : ms = ms' := by
  obtain ⟨inner, rfl, hread⟩ := members_rawMember h hvalues
  obtain ⟨inner', heq, hread'⟩ := members_rawMember h' hvalues'
  obtain rfl := (List.cons.inj heq).2
  have := (hread []).symm.trans (hread' [])
  exact (Prod.mk.inj (Except.ok.inj this)).1

/-- The characters of a string are determined by its text. -/
theorem stringText_unique {s s' t : Text} (h : StringText s t) (h' : StringText s' t) : s = s' := by
  have hread := reads_string "" h [] [] blank_nil blank_nil.delimited
  have hread' := reads_string "" h' [] [] blank_nil blank_nil.delimited
  exact (Prod.mk.inj (Except.ok.inj (hread.symm.trans hread'))).1

/-- What holds of the second parts of all pairs holds of the second list. -/
theorem forall_mem_of_zip {α β : Type} {p : β → Prop} {as : List α} {bs : List β}
    (hlength : as.length = bs.length) (h : ∀ q ∈ as.zip bs, p q.2) : ∀ b ∈ bs, p b := by
  intro b hb
  rw [← List.map_snd_zip hlength.ge] at hb
  obtain ⟨q, hq, rfl⟩ := List.mem_map.mp hb
  exact h q hq

/-- Members with the same keys are equally many. -/
theorem length_map_snd {ms : List (Text × Json)} {members : List (Text × Text)}
    (hkeys : ms.map Prod.fst = members.map Prod.fst) :
    (ms.map Prod.snd).length = (members.map Prod.snd).length := by
  have hlength := congrArg List.length hkeys
  simpa only [List.length_map] using hlength

/-- What spells a value is one. -/
theorem Spells.isValue {v : Json} {t : Text} (h : Spells v t) : IsValue t := by
  induction h with
  | null => exact .scalar .null
  | true => exact .scalar .true
  | false => exact .scalar .false
  | number hn => exact .scalar (.number hn.numberText)
  | string hs => exact .scalar (.string hs.anyString)
  | list hlist hlength _ ih => exact .list hlist (forall_mem_of_zip hlength ih)
  | object hobject hkeys _ ih =>
    have hvalues := forall_mem_of_zip (length_map_snd hkeys) ih
    exact .object hobject fun m hm => hvalues m.2 (List.mem_map_of_mem hm)

/-- Values that stand for the same texts are the same if each is told by its text. -/
theorem eq_of_zip_spells {ts : List Text} {vs ws : List Json} (hvs : vs.length = ts.length)
    (hws : ws.length = ts.length) (hunique : ∀ p ∈ vs.zip ts, ∀ {w}, Spells w p.2 → p.1 = w)
    (hspells : ∀ p ∈ ws.zip ts, Spells p.1 p.2) : vs = ws := by
  induction ts generalizing vs ws with
  | nil => rw [List.length_eq_zero_iff.mp hvs, List.length_eq_zero_iff.mp hws]
  | cons t ts ih =>
    obtain ⟨v, vs, rfl⟩ := List.exists_cons_of_length_eq_add_one hvs
    obtain ⟨w, ws, rfl⟩ := List.exists_cons_of_length_eq_add_one hws
    simp only [List.zip_cons_cons, List.forall_mem_cons] at hunique hspells
    rw [hunique.1 hspells.1, ih (Nat.succ.inj hvs) (Nat.succ.inj hws) hunique.2 hspells.2]

/-- A text spells one value at most. -/
theorem Spells.unique {v w : Json} {t : Text} (h : Spells v t) (h' : Spells w t) : v = w := by
  -- The first character of the text gives the form of the value; within a form the parts are found
  -- at the same places, and those of lists and objects are unique by induction.
  induction h generalizing w with
  | null =>
    cases w with
    | null => rfl
    | _ => cases Spells.null.form_eq h'
  | true =>
    cases w with
    | bool b =>
      cases b with
      | true => rfl
      | false => nomatch h'
    | _ => cases Spells.true.form_eq h'
  | false =>
    cases w with
    | bool b =>
      cases b with
      | true => nomatch h'
      | false => rfl
    | _ => cases Spells.false.form_eq h'
  | number hn =>
    cases w with
    | number m =>
      obtain _ | _ | _ | hm := h'
      rw [← hn.2, ← hm.2]
    | _ => cases (Spells.number hn).form_eq h'
  | string hs =>
    cases w with
    | string s' =>
      obtain _ | _ | _ | _ | hs' := h'
      rw [stringText_unique hs hs']
    | _ => cases (Spells.string hs).form_eq h'
  | list hlist hlength hspells ih =>
    cases w with
    | list ws =>
      obtain _ | _ | _ | _ | _ | ⟨hlist', hlength', hspells'⟩ := h'
      obtain rfl := listText_unique hlist hlist'
        (forall_mem_of_zip hlength fun p hp => (hspells p hp).isValue)
        (forall_mem_of_zip hlength' fun p hp => (hspells' p hp).isValue)
      rw [eq_of_zip_spells hlength hlength' ih hspells']
    | _ => cases (Spells.list hlist hlength hspells).form_eq h'
  | object hobject hkeys hspells ih =>
    cases w with
    | object ws =>
      obtain _ | _ | _ | _ | _ | _ | ⟨hobject', hkeys', hspells'⟩ := h'
      have hvalues := forall_mem_of_zip (length_map_snd hkeys) fun p hp => (hspells p hp).isValue
      have hvalues' := forall_mem_of_zip (length_map_snd hkeys') fun p hp =>
        (hspells' p hp).isValue
      obtain rfl := objectText_unique hobject hobject'
        (fun m hm => hvalues m.2 (List.mem_map_of_mem hm))
        (fun m hm => hvalues' m.2 (List.mem_map_of_mem hm))
      have hsame := eq_of_zip_spells (length_map_snd hkeys) (length_map_snd hkeys') ih hspells'
      exact congrArg Json.object
        ((List.zip_of_prod hkeys hsame).trans (List.zip_of_prod hkeys' rfl).symm)
    | _ => cases (Spells.object hobject hkeys hspells).form_eq h'

/-- A whole text denotes one value at most, whatever the white space around it. -/
theorem Denotes.unique {v w : Json} {t : Text} (h : Denotes t v) (h' : Denotes t w) : v = w := by
  have hraw {v : Json} {u front back : Text} (hv : Spells v u) (hfront : Blank front)
      (hback : Blank back) : rawValue (front ++ u ++ back) = .ok (u, back) := by
    rw [List.append_assoc]
    exact reads_rawValue hv.isValue front back hfront hback.delimited
  obtain ⟨u, hv, front, back, hfront, hback, rfl⟩ := h
  obtain ⟨u', hw, front', back', hfront', hback', heq⟩ := h'
  have hread := hraw hv hfront hback
  rw [heq, hraw hw hfront' hback'] at hread
  obtain rfl : u' = u := (Prod.mk.inj (Except.ok.inj hread)).1
  exact hv.unique hw

end DocCheck.Json
