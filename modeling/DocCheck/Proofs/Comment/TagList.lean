import DocCheck.Proofs.Comment.Description
import DocCheck.Proofs.Comment.Property

/-!
# The tags of a comment are its header lines

A comment keeps three lists about its tags: the order of all names, the tags of the vocabulary and
the tags outside it. All three are views of one list, the header lines of the stripped text with
their numbers. The lines that reading leaves out are blank and therefore no headers.
-/

namespace DocCheck

/-- The header lines among lines of which the first has number `line`: number and name of each. -/
def headersFrom (line : Nat) (ls : List Text) : List (Nat × Text) :=
  (ls.zipIdx line).filterMap fun (l, i) => (header? l).map fun (name, _) => (i, name)

/-- The header lines of a comment: number and name of each, in order. -/
def headers (lines : List Text) : List (Nat × Text) := headersFrom 0 lines

section Headers

/-- The headers of the lines are that of the first line and those of the others. -/
theorem headersFrom_cons (line : Nat) (l : Text) (ls : List Text) :
    headersFrom line (l :: ls) =
      ((header? l).map fun h => (line, h.1)).toList ++ headersFrom (line + 1) ls := by
  cases hheader : header? l <;> simp [headersFrom, hheader]

/-- The headers of two runs of lines, the second counted on from the first. -/
theorem headersFrom_append (line : Nat) (ls ms : List Text) :
    headersFrom line (ls ++ ms) = headersFrom line ls ++ headersFrom (line + ls.length) ms := by
  rw [headersFrom, List.zipIdx_append, List.filterMap_append]
  rfl

/-- Lines that open no tag have no headers. -/
theorem headersFrom_eq_nil {ls : List Text} (h : ∀ l ∈ ls, isHeader l = false) (line : Nat) :
    headersFrom line ls = [] := by
  induction ls generalizing line with
  | nil => rfl
  | cons l ls ih =>
    have hl : header? l = none := by simpa [isHeader] using h l List.mem_cons_self
    rw [headersFrom_cons, hl, ih fun m hm => h m (List.mem_cons_of_mem _ hm)]
    rfl

/-- Grouping makes one tag of each header line. -/
theorem RawTag.map_group (blanks line : Nat) (ls : List Text) :
    (group blanks line ls).2.map (fun t => (t.line, t.name)) = headersFrom line ls := by
  induction ls generalizing blanks line with
  | nil => rfl
  | cons l ls ih =>
    have hls := ih (if l.isBlank then blanks + 1 else 0) (line + 1)
    rw [headersFrom_cons, ← hls, group]
    cases header? l <;> rfl

/-- No line of the description opens a tag. -/
theorem isHeader_of_mem_bodyLines {lines : List Text} {l : Text} (h : l ∈ bodyLines lines) :
    isHeader l = false := by
  simpa using List.mem_takeWhile_imp h

/-- All header lines stand behind the description. -/
theorem headersFrom_tagLines (lines : List Text) :
    headersFrom (tagStart lines) (tagLines lines) = headers lines := by
  obtain ⟨front, back, hlines, hstart, hfront, hback⟩ := exists_contentLines lines
  have hnone {ls : List Text} (h : ∀ l ∈ ls, l.isBlank) (line : Nat) : headersFrom line ls = [] :=
    headersFrom_eq_nil (fun l hl => isHeader_of_isBlank (h l hl)) line
  have hbody : headersFrom front.length (bodyLines lines) = [] :=
    headersFrom_eq_nil (fun l hl => isHeader_of_mem_bodyLines hl) _
  conv_rhs =>
    rw [headers, hlines, headersFrom_append, hnone hback, List.append_nil, headersFrom_append,
      hnone hfront, List.nil_append, Nat.zero_add, ← bodyLines_append_tagLines,
      headersFrom_append, hbody, List.nil_append]
  rw [tagStart, hstart]

/-- The tags of a comment are its header lines. -/
theorem map_rawTags (lines : List Text) :
    (rawTags lines).map (fun t => (t.line, t.name)) = headers lines := by
  rw [rawTags, RawTag.map_group, headersFrom_tagLines]

/-- The tag on line `k` of a comment: its name, the remainder of its header line, and the lines that
follow, up to the next header or the end of the content. -/
structure TagAt (lines : List Text) (k : Nat) (name rest : Text) (continuation : List Text) :
    Prop where
  header_eq : lines[k]?.bind header? = some (name, rest)
  continuation_eq :
    continuation = (furtherContent (lines.drop (k + 1))).takeWhile (!isHeader ·)

section TagAt

variable {lines : List Text} {h h' k : Nat} {name name' rest rest' : Text}
  {continuation continuation' : List Text}

/-- There is one tag on a line. -/
theorem TagAt.unique (hat : TagAt lines k name rest continuation)
    (hat' : TagAt lines k name' rest' continuation') :
    name = name' ∧ rest = rest' ∧ continuation = continuation' := by
  have hheader := hat.header_eq.symm.trans hat'.header_eq
  obtain ⟨hname, hrest⟩ := Prod.mk.inj (Option.some.inj hheader)
  exact ⟨hname, hrest, hat.continuation_eq.trans hat'.continuation_eq.symm⟩

/-- The tags of a comment stand on their lines. -/
theorem RawTag.tagAt {t : RawTag} (h : t ∈ rawTags lines) :
    TagAt lines t.line t.name t.rest t.continuation := by
  obtain ⟨front, l, behind, rfl, hline, hheader, hcont⟩ := exists_header_of_mem_rawTags h
  constructor
  · rw [hline, List.getElem?_append_right (Nat.le_refl _), Nat.sub_self, List.getElem?_cons_zero,
      Option.bind_some, hheader]
  · rw [hcont, hline, List.append_cons, List.drop_left' (by simp)]

/-- Every tag on a line is one of the tags of the comment. -/
theorem TagAt.exists_rawTag (h : TagAt lines k name rest continuation) :
    ∃ t ∈ rawTags lines, t.line = k ∧ t.name = name ∧ t.rest = rest ∧
      t.continuation = continuation := by
  obtain ⟨l, hl, hheader⟩ := Option.bind_eq_some_iff.mp h.header_eq
  have hmem : (k, name) ∈ headers lines := by
    refine List.mem_filterMap.mpr ⟨(l, k), List.mem_zipIdx_iff_getElem?.mpr hl, ?_⟩
    exact congrArg (Option.map fun found => (k, found.1)) hheader
  rw [← map_rawTags] at hmem
  obtain ⟨t, ht, heq⟩ := List.mem_map.mp hmem
  obtain ⟨rfl, rfl⟩ := Prod.mk.inj heq
  obtain ⟨-, hrest, hcont⟩ := (RawTag.tagAt ht).unique h
  exact ⟨t, ht, rfl, rfl, hrest, hcont⟩

/-- The continuation lines of a tag are the lines behind its header line. -/
theorem TagAt.getElem?_add (hat : TagAt lines h name rest continuation) {j : Nat}
    (hj : j < continuation.length) : lines[h + 1 + j]? = continuation[j]? := by
  have hprefix : continuation <+: lines.drop (h + 1) := by
    rw [hat.continuation_eq]
    exact (List.takeWhile_prefix _).trans (furtherContent_isPrefix _)
  obtain ⟨behind, hbehind⟩ := hprefix
  rw [← List.getElem?_drop, ← hbehind, List.getElem?_append_left hj]

/-- No other tag starts on a line of a tag. -/
theorem TagAt.add_length_lt (hat : TagAt lines h name rest continuation)
    (hat' : TagAt lines h' name' rest' continuation') (hlt : h < h') :
    h + continuation.length < h' := by
  by_contra hle
  obtain ⟨j, rfl⟩ : ∃ j, h' = h + 1 + j := ⟨h' - (h + 1), by omega⟩
  have hj : j < continuation.length := by omega
  obtain ⟨l, hl, hheader⟩ := Option.bind_eq_some_iff.mp hat'.header_eq
  rw [hat.getElem?_add hj, hat.continuation_eq] at hl
  have hother : isHeader l = false := by
    simpa using List.mem_takeWhile_imp (List.mem_of_getElem? hl)
  rw [isHeader, hheader] at hother
  cases hother

/-- A line belongs to one tag only. -/
theorem TagAt.line_eq (hat : TagAt lines h name rest continuation)
    (hat' : TagAt lines h' name' rest' continuation') (hk : h < k)
    (hk' : k ≤ h + continuation.length) (hj : h' < k) (hj' : k ≤ h' + continuation'.length) :
    h = h' := by
  rcases Nat.lt_trichotomy h h' with hlt | heq | hgt
  · have := hat.add_length_lt hat' hlt
    omega
  · exact heq
  · have := hat'.add_length_lt hat hgt
    omega

end TagAt

/-- The lines behind the description start with the first header line. -/
theorem head?_headers (lines : List Text) :
    (headers lines).head?.map (·.1) =
      if (tagLines lines).isEmpty then none else some (tagStart lines) := by
  rw [← headersFrom_tagLines]
  cases htags : tagLines lines with
  | nil => rfl
  | cons l ls =>
    obtain ⟨found, hfound⟩ := Option.isSome_iff_exists.mp (isHeader_of_tagLines_eq_cons htags)
    rw [headersFrom_cons, hfound]
    rfl

/-- Without headers there are no lines of tags. -/
theorem tagLines_eq_nil_of_headers {lines : List Text} (h : headers lines = []) :
    tagLines lines = [] := by
  have hhead := head?_headers lines
  rw [h] at hhead
  by_contra hne
  rw [if_neg (by simpa using hne)] at hhead
  cases hhead

end Headers

/-- The shape of an element. -/
def Element.shape : Element → Shape
  | .leaf => .leaf
  | .single _ => .single
  | .keyValue _ _ => .keyValue
  | .property _ => .property

/-- Reading a tag gives an element of the shape that was asked for. -/
theorem RawTag.shape_element {t : RawTag} {shape : Shape} {rank : Nat} {eol : Text}
    {element : Element} (h : t.element shape rank eol = .ok element) : element.shape = shape := by
  cases shape with
  | leaf =>
    simp only [RawTag.element] at h
    split at h <;> cases h
    rfl
  | single =>
    cases h
    rfl
  | keyValue =>
    cases h
    rfl
  | property =>
    simp only [RawTag.element] at h
    cases hp : t.property rank eol with
    | error fault =>
      rw [hp] at h
      cases h
    | ok p =>
      rw [hp] at h
      cases h
      rfl

section Tags

variable {v : Vocabulary} {eol : Text} {ts : List RawTag} {os : List Occurrence}

/-- The declaration of an occurrence, if it is one of a property. -/
def Occurrence.declaration? (o : Occurrence) : Option Property :=
  match o.element with
  | .property declaration => some declaration
  | _ => none

/-- The property declarations are those of the tags, in their order. -/
theorem Comment.properties_eq (c : Comment) : c.properties = c.tags.filterMap (·.declaration?) :=
  rfl

/-- A tag is read with its line and its name. -/
theorem RawTag.ReadsAs.line_name {t : RawTag} {o : Occurrence} (h : t.ReadsAs v eol o) :
    (o.line, o.name) = (t.line, t.name) := by
  obtain ⟨g, rank, element, -, -, rfl⟩ := h
  rfl

/-- An occurrence of a property declaration agrees with the declaration on line and name. -/
theorem RawTag.ReadsAs.declaration {t : RawTag} {o : Occurrence} (h : t.ReadsAs v eol o)
    {p : Property} (hp : o.element = .property p) : p.line = o.line ∧ p.tag = o.name := by
  obtain ⟨g, rank, element, -, helement, rfl⟩ := h
  obtain rfl : element = .property p := hp
  rw [RawTag.property_eq_ok (RawTag.property_of_element helement).2]
  exact ⟨rfl, rfl⟩

/-- The declarations are counted up from the rank at which reading starts. -/
theorem ranks_readTags {rank : Nat} (h : readTags v eol rank ts = .ok os) :
    (os.filterMap (·.declaration?)).map (·.rank) =
      List.range' rank (os.filterMap (·.declaration?)).length := by
  induction ts generalizing rank os with
  | nil =>
    cases h
    rfl
  | cons t ts ih =>
    rcases readTags_cons_eq_ok h with ⟨-, hrest⟩ | ⟨g, element, os', -, helement, hrest, rfl⟩
    · exact ih hrest
    · have hranks := ih hrest
      rw [← RawTag.shape_element helement] at hranks
      -- Only a declaration takes a rank, and the next one is counted from there.
      cases element with
      | property p =>
        have hrank : p.rank = rank := by
          rw [RawTag.property_eq_ok (RawTag.property_of_element helement).2]
        rw [if_pos (by simp only [Element.shape])] at hranks
        simp only [List.filterMap_cons, Occurrence.declaration?, List.map_cons, List.length_cons,
          List.range'_succ, hrank] at hranks ⊢
        rw [hranks]
      | leaf | single | keyValue =>
        rw [if_neg (by simp [Element.shape])] at hranks
        exact hranks

end Tags

/-- The comment lists the header lines among the given lines. -/
structure Comment.ListsHeaders (c : Comment) (v : Vocabulary) (lines : List Text) : Prop where
  /-- Behind the description entry stand the names of all headers. -/
  order : c.order = descriptionEntry :: (headers lines).map (·.2)
  /-- The headers outside the vocabulary are the unknown tags. -/
  unknown : c.unknown.map (fun u => (u.line, u.name)) =
    (headers lines).filter fun h => (v.get? h.2).isNone
  /-- The headers of the vocabulary are the tags. -/
  tags : c.tags.map (fun o => (o.line, o.name)) =
    (headers lines).filter fun h => (v.get? h.2).isSome
  /-- Each tag is filed and shaped as its grammar says. -/
  grammar : ∀ o ∈ c.tags, ∃ g, v.get? o.name = some g ∧ o.container = g.container ∧
    o.element.shape = g.shape
  firstTag : c.firstTag = (headers lines).head?.map (·.1)
  firstTag_eq_none : c.firstTag = none ↔ headers lines = []
  length_order : c.order.length = 1 ↔ headers lines = []
  /-- The declarations are counted from one, in order. -/
  ranks : c.properties.map (·.rank) = List.range' 1 c.properties.length
  /-- A declaration has the line and the name of its tag. -/
  declaration : ∀ o ∈ c.tags, ∀ p, o.element = .property p → p.line = o.line ∧ p.tag = o.name
  isEmpty : c.isEmpty ↔ ∀ l ∈ lines, l.isBlank

section Reading

variable {raw eol : Text} {v : Vocabulary} {c : Comment}

/-- The tags outside the vocabulary are the header lines with such names. -/
theorem Comment.map_unknown_assemble (lines : List Text) (tags : List Occurrence) :
    (Comment.assemble v eol lines tags).unknown.map (fun u => (u.line, u.name)) =
      (headers lines).filter fun h => (v.get? h.2).isNone := by
  rw [← map_rawTags, List.filter_map]
  simp only [assemble, List.map_map]
  rfl

/-- Behind the description entry the order of tags has the names of all header lines. -/
theorem Comment.order_of_parse (h : Comment.parse raw v eol = .ok c) :
    c.order = descriptionEntry :: (headers (Margin.strip raw eol)).map (·.2) := by
  obtain ⟨tags, -, rfl⟩ := Comment.exists_tags_of_parse h
  rw [← map_rawTags, List.map_map]
  rfl

/-- The tags of the vocabulary are the header lines with such names. -/
theorem Comment.map_tags_of_parse (h : Comment.parse raw v eol = .ok c) :
    c.tags.map (fun o => (o.line, o.name)) =
      (headers (Margin.strip raw eol)).filter fun h => (v.get? h.2).isSome := by
  obtain ⟨tags, htags, rfl⟩ := Comment.exists_tags_of_parse h
  have hread := (forall₂_readTags htags).imp fun t o ht => ht.line_name
  rw [← map_rawTags, List.filter_map]
  have hmap := List.forall₂_map_left_iff.mpr (List.forall₂_map_right_iff.mpr hread.flip)
  exact List.forall₂_eq_eq_eq ▸ hmap

/-- A comment is empty exactly if all its lines are blank. -/
theorem Comment.isEmpty_assemble (lines : List Text) (tags : List Occurrence) :
    (Comment.assemble v eol lines tags).isEmpty ↔ ∀ l ∈ lines, l.isBlank := by
  have hdescription := readDescription_eq_nil_iff (bodyLines lines) (contentStart lines) eol
  have hlength : (rawTags lines).length = (headers lines).length := by
    rw [← map_rawTags, List.length_map]
  simp only [isEmpty, assemble, Bool.and_eq_true, List.isEmpty_iff, decide_eq_true_eq,
    List.length_cons, List.length_map, hdescription, hlength]
  constructor
  · rintro ⟨hbody, hheaders⟩ l hl
    have htags : tagLines lines = [] :=
      tagLines_eq_nil_of_headers (List.length_eq_zero_iff.mp (by omega))
    obtain ⟨front, back, hlines, -, hfront, hback⟩ := exists_contentLines lines
    rw [hlines, ← bodyLines_append_tagLines, htags, List.append_nil, List.mem_append,
      List.mem_append] at hl
    rcases hl with (hl | hl) | hl
    · exact hfront l hl
    · exact hbody l hl
    · exact hback l hl
  · intro hblank
    have hheaders : headers lines = [] :=
      headersFrom_eq_nil (fun l hl => isHeader_of_isBlank (hblank l hl)) 0
    exact ⟨fun l hl => hblank l (bodyLines_subset lines hl), by simp [hheaders]⟩

/-- Order, tags and unknown tags of a comment that was read are the header lines of its stripped
text. -/
theorem Comment.listsHeaders_of_parse (h : Comment.parse raw v eol = .ok c) :
    c.ListsHeaders v (Margin.strip raw eol) := by
  have horder := order_of_parse h
  have hmap := map_tags_of_parse h
  obtain ⟨tags, htags, rfl⟩ := Comment.exists_tags_of_parse h
  generalize Margin.strip raw eol = lines at *
  have hfirst : (assemble v eol lines tags).firstTag = (headers lines).head?.map (·.1) :=
    (head?_headers lines).symm
  have hread {o : Occurrence} (ho : o ∈ tags) : ∃ t : RawTag, t.ReadsAs v eol o := by
    obtain ⟨t, -, ht⟩ := exists_rawTag_of_mem htags ho
    exact ⟨t, ht⟩
  refine
    { order := horder
      unknown := map_unknown_assemble lines tags
      tags := hmap
      grammar := fun o ho => ?_
      firstTag := hfirst
      firstTag_eq_none := by rw [hfirst, Option.map_eq_none_iff, List.head?_eq_none_iff]
      length_order := by simp [horder]
      ranks := by rw [properties_eq]; exact ranks_readTags htags
      declaration := fun o ho p hp => ?_
      isEmpty := isEmpty_assemble lines tags }
  · obtain ⟨t, g, rank, element, hg, helement, rfl⟩ := hread ho
    exact ⟨g, hg, rfl, RawTag.shape_element helement⟩
  · obtain ⟨t, ht⟩ := hread ho
    exact ht.declaration hp

/-- A comment with an unknown tag and a package between two declarations. -/
def mixedTags : Text :=
  "/**\n * @property int $a A\n * @todo Sort\n * @package Foo\n *\n * @property-read\n".toList ++
    " *   int $b */".toList

/-- The unknown tag is in the order of tags and not among the tags, and the ranks pass over both
tags that are no declarations. -/
theorem Comment.listsHeaders_mixedTags :
    ∃ c, Comment.parse mixedTags .classComment "\n" = .ok c ∧
      headers (Margin.strip mixedTags "\n") =
        [(1, "property".toList), (2, "todo".toList), (3, "package".toList),
          (5, "property-read".toList)] ∧
      c.properties.map (·.rank) = [1, 2] ∧
      c.ListsHeaders .classComment (Margin.strip mixedTags "\n") := by
  have hparse : Comment.parse mixedTags .classComment "\n" = .ok {
      breaksAfter := 1, firstTag := some 1
      tags := [
        ⟨"property", "properties", 1, "\n", .property {
          tag := "property", beforeType := " ", type := "int", beforeName := " ", name := "$a"
          beforeComment := " ", comment := "A", above := "\n", rank := 1, line := 1 }⟩,
        ⟨"package", "package", 3, "\n", .single "Foo"⟩,
        ⟨"property-read", "properties", 5, "\n\n", .property {
          tag := "property-read", beforeType := "\n   ", type := "int", beforeName := " "
          name := "$b", above := "\n\n", rank := 2, line := 5 }⟩]
      order := ["comment", "property", "todo", "package", "property-read"]
      unknown := [⟨"todo", 2⟩] } := by decide +kernel
  exact ⟨_, hparse, by decide +kernel, rfl, listsHeaders_of_parse hparse⟩

end Reading

end DocCheck
