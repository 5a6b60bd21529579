import DiceBot.Json.Value
import Mathlib.Data.List.Forall2

/-!
The fields of a record in an object: a name that is not repeated gives one value or none.
-/

namespace DiceBot.Json

/-- What an object gives for a name: nothing, or the value of the only member of that name. -/
inductive Field (members : List (Option String × Value)) (name : String) : Option Value → Prop where
  | absent (h : ∀ m ∈ members, m.1 ≠ some name) : Field members name none
  | given {before after : List (Option String × Value)} {v : Value}
      (h : members = before ++ (some name, v) :: after)
      (hb : ∀ m ∈ before, m.1 ≠ some name) (ha : ∀ m ∈ after, m.1 ≠ some name) :
      Field members name (some v)

/-- The field that is read from an object, if its name is not repeated. -/
def field? (members : List (Option String × Value)) (name : String) : Option (Option Value) :=
  match members.filter fun m => m.1 == some name with
  | [] => some none
  | [m] => some (some m.2)
  | _ => none

theorem filter_eq_nil {members : List (Option String × Value)} {name : String} :
    members.filter (fun m => m.1 == some name) = [] ↔ ∀ m ∈ members, m.1 ≠ some name := by
  rw [List.filter_eq_nil_iff]
  exact forall₂_congr fun m _ => not_congr beq_iff_eq

theorem field?_eq_some_iff {members : List (Option String × Value)} {name : String}
    {field : Option Value} : field? members name = some field ↔ Field members name field := by
  constructor
  · intro h
    unfold field? at h
    split at h
    case h_1 hf =>
      cases h
      exact .absent (filter_eq_nil.mp hf)
    case h_2 m hf =>
      cases h
      obtain ⟨before, after, he, hb, hm, ha⟩ := List.filter_eq_cons_iff.mp hf
      obtain ⟨written, v⟩ := m
      cases beq_iff_eq.mp hm
      exact .given he (fun m hm he => hb m hm (beq_iff_eq.mpr he)) (filter_eq_nil.mp ha)
    case h_3 => cases h
  · intro h
    cases h with
    | absent h => rw [field?, filter_eq_nil.mpr h]
    | @given before after v he hb ha =>
      have hself : (some name == some name) = true := beq_self_eq_true (some name)
      subst he
      simp only [field?, List.filter_append, List.filter_cons, filter_eq_nil.mpr hb,
        filter_eq_nil.mpr ha, hself, if_true, List.nil_append]

theorem mapM_eq_some_iff {α β : Type} {f : α → Option β} {xs : List α} {ys : List β} :
    xs.mapM f = some ys ↔ List.Forall₂ (fun x y => f x = some y) xs ys := by
  induction xs generalizing ys with
  | nil => cases ys <;> simp
  | cons x xs ih =>
    rw [List.mapM_cons]
    cases hx : f x with
    | none => cases ys <;> simp [hx]
    | some y =>
      cases hxs : xs.mapM f with
      | none => cases ys <;> simp [hx, ← ih, hxs]
      | some rest => cases ys <;> simp [hx, ← ih, hxs]

/-- The fields of an object whose names are all text. -/
theorem Value.fields?_object_iff {members : List (Option String × Value)} {names : List String}
    {required : Nat} {fields : List (Option Value)} :
    (Value.object members).fields? names required = some fields ↔
      (∀ m ∈ members, m.1 ≠ none) ∧ List.Forall₂ (Field members) names fields := by
  have hfields : names.mapM (field? members) = some fields ↔
      List.Forall₂ (Field members) names fields := by
    rw [mapM_eq_some_iff]
    exact ⟨fun h => h.imp fun _ _ => field?_eq_some_iff.mp,
      fun h => h.imp fun _ _ => field?_eq_some_iff.mpr⟩
  have hany : members.any (fun m => m.1.isNone) = true ↔ ¬ ∀ m ∈ members, m.1 ≠ none := by
    simp
  change (if _ then none else names.mapM (field? members)) = some fields ↔ _
  split
  case isTrue h =>
    exact ⟨fun hn => (nomatch hn), fun hf => absurd hf.1 (hany.mp h)⟩
  case isFalse h =>
    rw [hfields]
    exact ⟨fun hf => ⟨not_not.mp (mt hany.mpr h), hf⟩, And.right⟩

theorem Value.fields?_array_long {items : List Value} {names : List String} {required : Nat}
    (h : names.length < items.length) : (Value.array items).fields? names required = none :=
  if_pos (.inr h)

end DiceBot.Json
