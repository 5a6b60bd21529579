import DiceBot.Text.Split
import Mathlib.Data.List.DropRight

/-!
The start of a text, a run of one character at its end, and the pieces between the occurrences of a
separator, the first and the last one among them.
-/

namespace DiceBot.Text

theorem dropStart?_append (start s : List Char) : dropStart? start (start ++ s) = some s := by
  have hp : start.isPrefixOf (start ++ s) = true :=
    List.isPrefixOf_iff_prefix.mpr (List.prefix_append start s)
  rw [dropStart?, if_pos hp, List.drop_left]

theorem eq_append_of_dropStart? {start s rest : List Char} (h : dropStart? start s = some rest) :
    s = start ++ rest := by
  unfold dropStart? at h
  split at h
  · next hp =>
    obtain ⟨rest', rfl⟩ := List.isPrefixOf_iff_prefix.mp hp
    cases h
    rw [List.drop_left]
  · cases h

/-- What is behind a text and starts with no character of the start does not take part in it. -/
theorem dropStart?_append_right {start s t : List Char} (ht : ∀ c ∈ t.head?, c ∉ start) :
    dropStart? start (s ++ t) = (dropStart? start s).map (· ++ t) := by
  cases hs : dropStart? start s with
  | some rest =>
    rw [eq_append_of_dropStart? hs, List.append_assoc, dropStart?_append]
    rfl
  | none =>
    cases hst : dropStart? start (s ++ t) with
    | none => rfl
    | some rest =>
      rcases List.append_eq_append_iff.mp (eq_append_of_dropStart? hst) with
        ⟨middle, rfl, rfl⟩ | ⟨middle, rfl, -⟩
      · cases middle with
        | nil =>
          rw [List.append_nil] at hs
          have hself := dropStart?_append s []
          rw [List.append_nil, hs] at hself
          cases hself
        | cons c middle =>
          exact absurd (List.mem_append_right s List.mem_cons_self) (ht c rfl)
      · rw [dropStart?_append] at hs
        cases hs

theorem toList_dropRunAtEnd (c : Char) (s : String) :
    (dropRunAtEnd c s).toList = s.toList.rdropWhile (· == c) := by
  rw [dropRunAtEnd, String.toList_ofList]
  rfl

theorem rdropWhile_append_replicate {c : Char} {s : List Char} (hs : s.getLast? ≠ some c)
    (n : Nat) : (s ++ List.replicate n c).rdropWhile (· == c) = s := by
  induction n with
  | zero =>
    rw [List.replicate_zero, List.append_nil, List.rdropWhile_eq_self_iff]
    intro hne hc
    rw [List.getLast?_eq_some_getLast hne, beq_iff_eq.mp hc] at hs
    exact hs rfl
  | succ n ih =>
    rw [List.replicate_succ', ← List.append_assoc,
      List.rdropWhile_concat_pos (· == c) _ c (beq_self_eq_true c), ih]

/-- The run is dropped as a whole and nothing else is. -/
theorem dropRunAtEnd_spec (c : Char) (s : String) :
    ∃ n, s.toList = (dropRunAtEnd c s).toList ++ List.replicate n c ∧
      (dropRunAtEnd c s).toList.getLast? ≠ some c := by
  rw [toList_dropRunAtEnd]
  have hrun : ∀ d ∈ s.toList.rtakeWhile (· == c), d = c := by
    intro d hd
    simpa using List.mem_rtakeWhile_imp hd
  refine ⟨(s.toList.rtakeWhile (· == c)).length, ?_, ?_⟩
  · rw [← List.eq_replicate_of_mem hrun]
    exact List.rdropWhile_append_rtakeWhile.symm
  · intro hl
    obtain ⟨l, hl⟩ := List.getLast?_eq_some_iff.mp hl
    have hne : s.toList.rdropWhile (· == c) ≠ [] := by simp [hl]
    have := List.rdropWhile_last_not (· == c) s.toList hne
    simp [hl] at this

/-- A text is cut where the separator occurs first. -/
theorem splitFirst_eq_some_iff {α : Type} [DecidableEq α] {sep : α} {s before after : List α} :
    splitFirst sep s = some (before, after) ↔ s = before ++ sep :: after ∧ sep ∉ before := by
  induction s generalizing before with
  | nil => simp [splitFirst]
  | cons c rest ih =>
    unfold splitFirst
    split
    · next hc =>
      subst hc
      constructor
      · intro h
        cases h
        exact ⟨rfl, List.not_mem_nil⟩
      · rintro ⟨he, hn⟩
        cases before with
        | nil =>
          cases he
          rfl
        | cons d before =>
          cases he
          exact absurd List.mem_cons_self hn
    · next hc =>
      constructor
      · intro h
        obtain ⟨⟨before', after'⟩, hs, he⟩ := Option.map_eq_some_iff.mp h
        cases he
        obtain ⟨rfl, hn⟩ := ih.mp hs
        refine ⟨rfl, ?_⟩
        intro hm
        rcases List.mem_cons.mp hm with he | hm
        · exact hc he.symm
        · exact hn hm
      · rintro ⟨he, hn⟩
        cases before with
        | nil =>
          cases he
          exact absurd rfl hc
        | cons d before =>
          cases he
          have hs := ih.mpr ⟨rfl, fun hm => hn (List.mem_cons_of_mem _ hm)⟩
          rw [hs]
          rfl

theorem splitFirst_eq_none_iff {α : Type} [DecidableEq α] {sep : α} {s : List α} :
    splitFirst sep s = none ↔ sep ∉ s := by
  constructor
  · intro h hm
    obtain ⟨before, after, hs, hn⟩ := List.eq_append_cons_of_mem hm
    cases h.symm.trans (splitFirst_eq_some_iff.mpr ⟨hs, hn⟩)
  · intro hn
    cases h : splitFirst sep s with
    | none => rfl
    | some pair =>
      obtain ⟨rfl, -⟩ := splitFirst_eq_some_iff.mp h
      exact absurd (List.mem_append_right _ List.mem_cons_self) hn

/-- A text can be cut in one way only where a separator occurs last. -/
theorem append_cons_inj_of_last {α : Type} {sep : α} {a b x y : List α} (hx : sep ∉ x)
    (hy : sep ∉ y) (h : a ++ sep :: x = b ++ sep :: y) : a = b ∧ x = y := by
  rcases List.append_eq_append_iff.mp h with ⟨c, rfl, hc⟩ | ⟨c, rfl, hc⟩
  · cases c with
    | nil =>
      cases hc
      exact ⟨(List.append_nil a).symm, rfl⟩
    | cons d c =>
      cases hc
      exact absurd (List.mem_append_right c List.mem_cons_self) hx
  · cases c with
    | nil =>
      cases hc
      exact ⟨List.append_nil b, rfl⟩
    | cons d c =>
      cases hc
      exact absurd (List.mem_append_right c List.mem_cons_self) hy

/-- Joined text is made of its pieces and of the text between them. -/
theorem mem_intercalate {α : Type} {sep : List α} {pieces : List (List α)} {c : α}
    (h : c ∈ sep.intercalate pieces) : c ∈ sep ∨ ∃ piece ∈ pieces, c ∈ piece := by
  induction pieces with
  | nil => cases h
  | cons piece pieces ih =>
    cases pieces with
    | nil =>
      rw [List.intercalate_singleton] at h
      exact .inr ⟨piece, List.mem_cons_self, h⟩
    | cons next pieces =>
      rw [List.intercalate_cons_cons, List.mem_append, List.mem_append] at h
      rcases h with (h | h) | h
      · exact .inr ⟨piece, List.mem_cons_self, h⟩
      · exact .inl h
      · rcases ih h with h | ⟨found, hf, h⟩
        · exact .inl h
        · exact .inr ⟨found, List.mem_cons_of_mem _ hf, h⟩

end DiceBot.Text
