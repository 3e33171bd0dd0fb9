import DocCheck.Text.Basic
import Mathlib.Data.List.Induction
import Mathlib.Data.List.Nodup

/-!
# Names in the order of their first entry

Where things are kept by name, a new name goes behind the others and a known one stays where it is.
The names are then those that were entered, each at its first place.
-/

namespace DocCheck

/-- A single name is kept unless it is to be removed. -/
theorem removeAll_singleton (names : List Text) (name : Text) :
    [name].removeAll names = if name ∈ names then [] else [name] := by
  by_cases hmem : name ∈ names <;> simp [List.removeAll, hmem]

/-- A name at the end is kept only if it is new. -/
theorem eraseDups_concat (names : List Text) (name : Text) :
    (names ++ [name]).eraseDups =
      if name ∈ names.eraseDups then names.eraseDups else names.eraseDups ++ [name] := by
  rw [List.eraseDups_append, removeAll_singleton]
  simp only [List.mem_eraseDups]
  split
  · rw [List.eraseDups_nil, List.append_nil]
  · rfl

/-- No name is left twice. -/
theorem nodup_eraseDups (names : List Text) : names.eraseDups.Nodup := by
  induction names using List.reverseRecOn with
  | nil => exact List.nodup_nil
  | append_singleton names name ih =>
    rw [eraseDups_concat]
    split
    · exact ih
    · next hnew => exact List.nodup_append.mpr ⟨ih, List.nodup_singleton name, by grind⟩

/-- Where no name comes twice, everything is found under its own name. -/
theorem find?_name_of_nodup {α : Type} {name : α → Text} {xs : List α} (h : (xs.map name).Nodup)
    {x : α} (hx : x ∈ xs) : xs.find? (name · = name x) = some x := by
  induction xs with
  | nil => cases hx
  | cons first xs ih =>
    obtain ⟨hnew, hxs⟩ := List.nodup_cons.mp h
    rcases List.mem_cons.mp hx with rfl | hx
    · simp
    · have hne : name first ≠ name x := fun heq => hnew (List.mem_map.mpr ⟨x, hx, heq.symm⟩)
      simpa [hne] using ih hxs hx

/-- The names after further ones were entered: the old ones and behind them those of the others that
are new, each at its first place. -/
def enterNames (names further : List Text) : List Text :=
  names ++ (further.removeAll names).eraseDups

section Entering

variable (names further : List Text)

/-- Entering no names changes nothing. -/
theorem enterNames_nil : enterNames names [] = names := List.append_nil names

/-- One more name is put behind the others unless it is known. -/
theorem enterNames_concat (name : Text) :
    enterNames names (further ++ [name]) =
      if name ∈ enterNames names further then enterNames names further
      else enterNames names further ++ [name] := by
  have hsplit : (further ++ [name]).removeAll names =
      further.removeAll names ++ [name].removeAll names := List.filter_append ..
  rw [enterNames, hsplit, removeAll_singleton, enterNames]
  by_cases hmem : name ∈ names
  · rw [if_pos hmem, List.append_nil, if_pos (List.mem_append_left _ hmem)]
  · rw [if_neg hmem, eraseDups_concat]
    simp only [List.mem_append, hmem, false_or]
    split
    · rfl
    · rw [List.append_assoc]

end Entering

end DocCheck
