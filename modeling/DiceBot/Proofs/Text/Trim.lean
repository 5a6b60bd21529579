import DiceBot.Text.Blank
import Mathlib.Data.List.DropRight

/-!
What trimming takes from a text and what it leaves. Trimming twice is trimming once.
-/

namespace DiceBot.Text

theorem trimEnd_eq_rdropWhile (s : List Char) : trimEnd s = s.rdropWhile isBlank := rfl

/-- A text that starts with no blank still does so when blanks are taken from its end. -/
theorem trimStart_of_prefix {s t : List Char} (h : t <+: s.dropWhile isBlank) :
    trimStart t = t := by
  cases t with
  | nil => rfl
  | cons c t =>
    obtain ⟨rest, hr⟩ := h
    have hc := List.head?_dropWhile_not isBlank s
    rw [← hr] at hc
    have hb : isBlank c = false := hc
    simp [trimStart, hb]

theorem trim_trim (s : List Char) : trim (trim s) = trim s := by
  have hs : trimStart (trim s) = trim s := trimStart_of_prefix (List.rdropWhile_prefix isBlank _)
  rw [trim, hs, trim, trimEnd_eq_rdropWhile, trimEnd_eq_rdropWhile, List.rdropWhile_idempotent]

/-- A text that trimming leaves as it is starts with no blank and ends with none. -/
theorem isBlank_ends_of_trim {s : List Char} (h : trim s = s) :
    (∀ c ∈ s.head?, isBlank c = false) ∧ ∀ c ∈ s.getLast?, isBlank c = false := by
  constructor
  · intro c hc
    have hs : trimStart s = s := by
      rw [← h]
      exact trimStart_of_prefix (List.rdropWhile_prefix isBlank _)
    have hd := List.head?_dropWhile_not isBlank s
    rw [show s.dropWhile isBlank = s from hs, hc] at hd
    exact hd
  · intro c hc
    have hne : (trimStart s).rdropWhile isBlank ≠ [] := by
      rw [← trimEnd_eq_rdropWhile, ← trim, h]
      rintro rfl
      cases hc
    have hl := List.rdropWhile_last_not isBlank (trimStart s) hne
    have hlast : s.getLast? = some (((trimStart s).rdropWhile isBlank).getLast hne) := by
      rw [← List.getLast?_eq_some_getLast hne, ← trimEnd_eq_rdropWhile, ← trim, h]
    rw [hlast, Option.mem_some_iff] at hc
    simpa [hc] using hl

theorem trim_of_no_blank {s : List Char} (h : ∀ c ∈ s, isBlank c = false) : trim s = s := by
  have hs : trimStart s = s := by
    cases s with
    | nil => rfl
    | cons c s => simp [trimStart, h c List.mem_cons_self]
  rw [trim, hs, trimEnd_eq_rdropWhile, List.rdropWhile_eq_self_iff]
  intro hne
  rw [h _ (List.getLast_mem hne)]
  decide

theorem trimEnd_append_blanks {s blanks : List Char} (h : ∀ c ∈ blanks, isBlank c = true) :
    trimEnd (s ++ blanks) = trimEnd s := by
  have hb : ∀ c ∈ blanks.reverse, isBlank c = true := fun c hc => h c (List.mem_reverse.mp hc)
  rw [trimEnd, List.reverse_append, List.dropWhile_append_of_pos hb, trimEnd]

/-- Blanks around a text are trimmed like its own. -/
theorem trim_padded {left s right : List Char} (hl : ∀ c ∈ left, isBlank c = true)
    (hr : ∀ c ∈ right, isBlank c = true) : trim (left ++ s ++ right) = trim s := by
  rw [trim, trimStart, List.append_assoc, List.dropWhile_append_of_pos hl, List.dropWhile_append]
  split
  case isTrue he =>
    have hs : trimStart s = [] := List.isEmpty_iff.mp he
    have hright : right.dropWhile isBlank = [] := List.dropWhile_eq_nil_iff.mpr hr
    rw [hright, trim, hs]
  case isFalse => rw [trimEnd_append_blanks hr, trim, trimStart]

/-- A text is what trimming leaves of it, with blanks around that. -/
theorem exists_padding (s : List Char) : ∃ left right, (∀ c ∈ left, isBlank c = true) ∧
    (∀ c ∈ right, isBlank c = true) ∧ s = left ++ trim s ++ right := by
  refine ⟨s.takeWhile isBlank, (trimStart s).rtakeWhile isBlank,
    fun _ hc => List.mem_takeWhile_imp hc, fun _ hc => List.mem_rtakeWhile_imp hc, ?_⟩
  rw [trim, trimEnd_eq_rdropWhile, List.append_assoc, List.rdropWhile_append_rtakeWhile, trimStart,
    List.takeWhile_append_dropWhile]

/-- A text without the blanks around another one, with no blank at its own ends. -/
structure Trimmed (s t : List Char) : Prop where
  padded : ∃ left right, (∀ c ∈ left, isBlank c = true) ∧ (∀ c ∈ right, isBlank c = true) ∧
    s = left ++ t ++ right
  head : ∀ c ∈ t.head?, isBlank c = false
  last : ∀ c ∈ t.getLast?, isBlank c = false

theorem trim_eq_iff {s t : List Char} : trim s = t ↔ Trimmed s t := by
  constructor
  · rintro rfl
    obtain ⟨hhead, hlast⟩ := isBlank_ends_of_trim (trim_trim s)
    exact ⟨exists_padding s, hhead, hlast⟩
  · rintro ⟨⟨left, right, hleft, hright, rfl⟩, hhead, hlast⟩
    have hstart : trimStart t = t := by
      cases t with
      | nil => rfl
      | cons c t => simp [trimStart, hhead c rfl]
    rw [trim_padded hleft hright, trim, hstart, trimEnd_eq_rdropWhile,
      List.rdropWhile_eq_self_iff]
    intro hne
    rw [hlast _ (List.getLast?_eq_some_getLast hne)]
    decide

theorem trim_eq_nil_iff {s : List Char} : trim s = [] ↔ ∀ c ∈ s, isBlank c = true := by
  constructor
  · intro h
    rw [trim, trimEnd_eq_rdropWhile, List.rdropWhile_eq_nil_iff] at h
    cases hs : trimStart s with
    | nil => exact List.dropWhile_eq_nil_iff.mp hs
    | cons c rest =>
      have hc := List.head?_dropWhile_not isBlank s
      rw [show s.dropWhile isBlank = c :: rest from hs] at hc
      have hb := h c (by simp [hs])
      rw [show isBlank c = false from hc] at hb
      cases hb
  · intro h
    have hs : trimStart s = [] := List.dropWhile_eq_nil_iff.mpr h
    rw [trim, hs]
    rfl

@[simp] theorem toList_strip (s : String) : (strip s).toList = trim s.toList := by
  simp [strip]

theorem isAllBlank_iff {s : String} : isAllBlank s = true ↔ trim s.toList = [] := by
  rw [isAllBlank, List.all_eq_true, trim_eq_nil_iff]

theorem isAllBlank_strip (s : String) : isAllBlank (strip s) = isAllBlank s := by
  rw [Bool.eq_iff_iff, isAllBlank_iff, isAllBlank_iff, toList_strip, trim_trim]

end DiceBot.Text
