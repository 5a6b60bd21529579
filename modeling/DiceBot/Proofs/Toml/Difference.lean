import DiceBot.Toml.Read
import Mathlib.Data.List.Forall2

/-!
Documents that differ in one text only. What is done to such documents line by line does not see the
text, so they go on to differ in it only.
-/

namespace DiceBot.Toml

def Value.isList : Value → Bool
  | .array _ | .tables _ => true
  | _ => false

namespace Entries

/-- A change of the value under one key: a new value, or a step from the value that is there. -/
def alter? (key : String) (new : Option Value) (step : Value → Option Value) (entries : Entries) :
    Option Entries :=
  match entries.find? key with
  | none => new.map fun v => entries.add key v
  | some v => (step v).map fun v => entries.replace key v

/-- The same key with the same value, or with a related one under the key that differs. -/
def Alike (key : String) (R : Value → Value → Prop) (a b : String × Value) : Prop :=
  a.1 = b.1 ∧ if a.1 = key then R a.2 b.2 else a.2 = b.2

/-- Entries that are the same but for the value under one key. -/
structure DifferBelow (key : String) (R : Value → Value → Prop) (es es' : Entries) : Prop where
  alike : List.Forall₂ (Alike key R) es es'
  there : (es.find? key).isSome

end Entries

/-- Values that differ in a text at the end of a path of keys. -/
def DifferAt (text text' : String) : (path : List String) → Value → Value → Prop
  | [], v, v' => v = .string text ∧ v' = .string text'
  | key :: rest, v, v' => ∃ origin es es', v = .table origin es ∧ v' = .table origin es' ∧
    Entries.DifferBelow key (DifferAt text text' rest) es es'

namespace Entries

variable {text text' key q : String} {R S : Value → Value → Prop} {es es' r : Entries}
  {v v' : Value}

theorem Alike.here (h : R v v') : Alike key R (key, v) (key, v') :=
  ⟨rfl, by rw [if_pos rfl]; exact h⟩

theorem Alike.other {a : String × Value} (h : a.1 ≠ key) : Alike key R a a :=
  ⟨rfl, by rw [if_neg h]⟩

theorem find?_cons (a : String × Value) :
    find? q (a :: es) = if q = a.1 then some a.2 else find? q es := by
  rw [find?, find?, List.lookup_cons]
  by_cases h : q = a.1
  · simp [h]
  · rw [beq_eq_false_iff_ne.mpr h, if_neg h]

theorem find?_add :
    (es.add q v).find? key = (es.find? key <|> if key = q then some v else none) := by
  induction es with
  | nil =>
    change find? key [(q, v)] = _
    rw [find?_cons]
    rfl
  | cons a rest ih =>
    change find? key (a :: add q v rest) = _
    rw [find?_cons, find?_cons, ih]
    by_cases h : key = a.1 <;> simp [h]

theorem find?_replace :
    (es.replace q v).find? key = (es.find? key).map fun w => if key = q then v else w := by
  induction es with
  | nil => rfl
  | cons a rest ih =>
    change find? key ((if a.1 = q then (q, v) else a) :: replace q v rest) = _
    rw [find?_cons, find?_cons, ih]
    by_cases hq : a.1 = q
    · by_cases hkey : key = q <;> simp [hq, hkey]
    · by_cases hkey : key = a.1
      · simp [hq, hkey]
      · simp [hq, hkey]

theorem DifferBelow.find?_of_ne (h : DifferBelow key R es es') (hq : q ≠ key) :
    es.find? q = es'.find? q := by
  obtain ⟨halike, -⟩ := h
  induction halike with
  | nil => rfl
  | @cons a b _ _ hab _ ih =>
    obtain ⟨hkey, hvalue⟩ := hab
    rw [find?_cons, find?_cons, ih, ← hkey]
    split
    · next heq => rw [if_neg (heq ▸ hq)] at hvalue; rw [hvalue]
    · rfl

theorem DifferBelow.find? (h : DifferBelow key R es es') :
    ∃ w w', es.find? key = some w ∧ es'.find? key = some w' ∧ R w w' := by
  obtain ⟨halike, hthere⟩ := h
  induction halike with
  | nil => cases hthere
  | @cons a b _ _ hab _ ih =>
    obtain ⟨hkey, hvalue⟩ := hab
    rw [find?_cons] at hthere ⊢
    rw [find?_cons, ← hkey]
    by_cases heq : key = a.1
    · rw [if_pos heq.symm] at hvalue
      simp [heq, hvalue]
    · rw [if_neg heq] at hthere
      simpa [heq] using ih hthere

theorem DifferBelow.add (h : DifferBelow key R es es') (hq : q ≠ key) :
    DifferBelow key R (es.add q v) (es'.add q v) where
  alike := List.rel_append h.alike (.cons (.other hq) .nil)
  there := by
    obtain ⟨w, -, hw, -⟩ := h.find?
    simp [find?_add, hw]

theorem DifferBelow.replace_of_ne (h : DifferBelow key R es es') (hq : q ≠ key) :
    DifferBelow key R (es.replace q v) (es'.replace q v) where
  alike := by
    refine List.rel_map (fun a b hab => ?_) h.alike
    obtain ⟨hkey, hvalue⟩ := hab
    rw [← hkey]
    split
    · exact .other hq
    · exact ⟨hkey, hvalue⟩
  there := by simpa [find?_replace] using h.there

/-- Related values under the key make entries differ there, whatever was there before. -/
theorem DifferBelow.replace (h : DifferBelow key R es es') (hS : S v v') :
    DifferBelow key S (es.replace key v) (es'.replace key v') where
  alike := by
    refine List.rel_map (fun a b hab => ?_) h.alike
    obtain ⟨hkey, hvalue⟩ := hab
    rw [← hkey]
    split
    · exact .here hS
    · next hne => exact ⟨hkey, by rw [if_neg hne] at hvalue ⊢; exact hvalue⟩
  there := by simpa [find?_replace] using h.there

/-- A change that does what it does to entries also to those that differ from them in a text, which
then still differ in it. -/
structure Carries (text text' : String) (change : Entries → Option Entries) : Prop where
  differ : ∀ {key : String} {rest : List String} {es es' r : Entries},
    DifferBelow key (DifferAt text text' rest) es es' → change es = some r →
    ∃ r', change es' = some r' ∧ DifferBelow key (DifferAt text text' rest) r r'

/-- The same for the step of a value. -/
structure CarriesValue (text text' : String) (step : Value → Option Value) : Prop where
  differ : ∀ {path : List String} {v v' w : Value}, DifferAt text text' path v v' →
    step v = some w → ∃ w', step v' = some w' ∧ DifferAt text text' path w w'

theorem carries_alter? {new : Option Value} {step : Value → Option Value}
    (hstep : CarriesValue text text' step) : Carries text text' (alter? q new step) := by
  refine ⟨fun {key rest es es' r} h hr => ?_⟩
  unfold alter? at hr ⊢
  by_cases hq : q = key
  · subst hq
    obtain ⟨w, w', hw, hw', hdiffer⟩ := h.find?
    simp only [hw, hw', Option.map_eq_some_iff] at hr ⊢
    obtain ⟨x, hx, rfl⟩ := hr
    obtain ⟨x', hx', hdiffer'⟩ := hstep.differ hdiffer hx
    exact ⟨_, ⟨x', hx', rfl⟩, h.replace hdiffer'⟩
  · rw [← h.find?_of_ne hq]
    cases hfind : es.find? q with
    | none =>
      simp only [hfind, Option.map_eq_some_iff] at hr ⊢
      obtain ⟨x, hx, rfl⟩ := hr
      exact ⟨_, ⟨x, hx, rfl⟩, h.add hq⟩
    | some w =>
      simp only [hfind, Option.map_eq_some_iff] at hr ⊢
      obtain ⟨x, hx, rfl⟩ := hr
      exact ⟨_, ⟨x, hx, rfl⟩, h.replace_of_ne hq⟩

/-- A step carries a difference when it fails on texts and changes the entries of tables by what
carries it. -/
theorem carriesValue_of {step : Value → Option Value} (hstring : ∀ s, step (.string s) = none)
    (htable : ∀ origin, ∃ origin' change, Carries text text' change ∧
      ∀ inner, step (.table origin inner) = (change inner).map (.table origin')) :
    CarriesValue text text' step := by
  refine ⟨fun {path v v' w} h hw => ?_⟩
  cases path with
  | nil =>
    obtain ⟨rfl, -⟩ := h
    cases (hstring text).symm.trans hw
  | cons key rest =>
    obtain ⟨origin, es, es', rfl, rfl, hdiffer⟩ := h
    obtain ⟨origin', change, hchange, hstep⟩ := htable origin
    rw [hstep, Option.map_eq_some_iff] at hw
    obtain ⟨r, hr, rfl⟩ := hw
    obtain ⟨r', hr', hdiffer'⟩ := hchange.differ hdiffer hr
    exact ⟨.table origin' r', by rw [hstep, hr']; rfl, origin', r, r', rfl, rfl, hdiffer'⟩

theorem carries_none : Carries text text' fun _ => none := ⟨fun _ h => nomatch h⟩

theorem carries_some : Carries text text' some := ⟨fun h hr => ⟨_, rfl, Option.some.inj hr ▸ h⟩⟩

theorem Carries.bind {change change' : Entries → Option Entries} (h : Carries text text' change)
    (h' : Carries text text' change') :
    Carries text text' fun es => (change es).bind change' := by
  refine ⟨fun {key rest es es' r} hdiffer hr => ?_⟩
  obtain ⟨m, hm, hmr⟩ := Option.bind_eq_some_iff.mp hr
  obtain ⟨m', hm', hdiffer'⟩ := h.differ hdiffer hm
  obtain ⟨r', hr', hdiffer''⟩ := h'.differ hdiffer' hmr
  exact ⟨r', Option.bind_eq_some_iff.mpr ⟨m', hm', hr'⟩, hdiffer''⟩

/-- What adding a value under a dotted key does to the value under its first part. -/
def insertInto? (value : Value) (k : String) (rest : List String) : Value → Option Value
  | .table .dotted inner => (insert? value (k :: rest) inner).map (.table .dotted)
  | .table .implied inner =>
    if rest = [] then none else (insert? value (k :: rest) inner).map (.table .implied)
  | .tables items =>
    if rest = [] then none
    else (ofLast? items).bind fun inner =>
      (insert? value (k :: rest) inner).map fun inner => replaceLast items inner
  | _ => none

theorem insert?_singleton (value : Value) (k : String) :
    insert? value [k] = alter? k (some value) fun _ => none := by
  funext es
  unfold insert? alter?
  cases es.find? k <;> rfl

theorem insert?_cons (value : Value) (q k : String) (rest : List String) :
    insert? value (q :: k :: rest) =
      alter? q ((insert? value (k :: rest) []).map (.table .dotted))
        (insertInto? value k rest) := by
  funext es
  rw [insert?.eq_def]
  unfold alter?
  dsimp only
  cases es.find? q with
  | none => simp [Option.map_map, Function.comp_def]
  | some v =>
    by_cases hrest : rest = []
    · cases v with
      | table origin inner =>
        cases origin <;> simp [insertInto?, hrest, Option.map_map, Function.comp_def]
      | _ => simp [insertInto?, hrest]
    · cases v with
      | table origin inner =>
        cases origin <;> simp [insertInto?, hrest, Option.map_map, Function.comp_def]
      | tables items =>
        simp [insertInto?, hrest, Option.map_map, Option.map_bind, Function.comp_def]
      | _ => simp [insertInto?]

/-- What a change at a path of headers does to the value under its first part. -/
def updateInto? (change : Entries → Option Entries) (rest : List String) : Value → Option Value
  | .table origin inner =>
    if origin = .inline then none else (update? change rest inner).map (.table origin)
  | .tables items =>
    (ofLast? items).bind fun inner =>
      (update? change rest inner).map fun inner => replaceLast items inner
  | _ => none

theorem update?_cons (change : Entries → Option Entries) (k : String) (rest : List String) :
    update? change (k :: rest) =
      alter? k ((update? change rest []).map (.table .implied)) (updateInto? change rest) := by
  funext es
  rw [update?.eq_def]
  unfold alter?
  dsimp only
  cases es.find? k with
  | none => simp [Option.map_map, Function.comp_def]
  | some v =>
    cases v with
    | table origin inner =>
      by_cases horigin : origin = .inline <;>
        simp [updateInto?, horigin, Option.map_map, Function.comp_def]
    | tables items =>
      simp [updateInto?, Option.map_map, Option.map_bind, Function.comp_def]
    | _ => simp [updateInto?]

theorem openTable?_eq (k : String) :
    openTable? k = alter? k (some (.table .header [])) fun
      | .table .implied inner => some (.table .header inner)
      | _ => none := by
  funext es
  unfold openTable? alter?
  split <;> simp_all

theorem openNext?_eq (k : String) :
    openNext? k = alter? k (some (.tables [.table .header []])) fun
      | .tables items => some (.tables (items ++ [.table .header []]))
      | _ => none := by
  funext es
  unfold openNext? alter?
  split <;> simp_all

theorem carries_insert? (value : Value) (key : List String) :
    Carries text text' (insert? value key) := by
  match key with
  | [] => exact ⟨fun _ h => by simp [insert?] at h⟩
  | [k] =>
    rw [insert?_singleton]
    refine carries_alter? (carriesValue_of (fun _ => rfl) fun origin => ?_)
    exact ⟨origin, _, carries_none, fun _ => rfl⟩
  | q :: k :: rest =>
    have ih := carries_insert? value (k :: rest)
    rw [insert?_cons]
    refine carries_alter? (carriesValue_of (fun _ => rfl) fun origin => ?_)
    cases origin with
    | dotted => exact ⟨.dotted, _, ih, fun _ => rfl⟩
    | implied =>
      by_cases hrest : rest = []
      · exact ⟨.implied, _, carries_none, fun _ => by simp [insertInto?, hrest]⟩
      · exact ⟨.implied, _, ih, fun _ => by simp [insertInto?, hrest]⟩
    | _ => exact ⟨.inline, _, carries_none, fun _ => rfl⟩

theorem carries_update? {change : Entries → Option Entries} (h : Carries text text' change)
    (path : List String) : Carries text text' (update? change path) := by
  induction path with
  | nil => exact h
  | cons k rest ih =>
    rw [update?_cons]
    refine carries_alter? (carriesValue_of (fun _ => rfl) fun origin => ?_)
    by_cases horigin : origin = .inline
    · exact ⟨origin, _, carries_none, fun _ => by simp [updateInto?, horigin]⟩
    · exact ⟨origin, _, ih, fun _ => by simp [updateInto?, horigin]⟩

theorem carries_openTable? (k : String) : Carries text text' (openTable? k) := by
  rw [openTable?_eq]
  refine carries_alter? (carriesValue_of (fun _ => rfl) fun origin => ?_)
  cases origin with
  | implied => exact ⟨.header, _, carries_some, fun _ => rfl⟩
  | _ => exact ⟨.inline, _, carries_none, fun _ => rfl⟩

theorem carries_openNext? (k : String) : Carries text text' (openNext? k) := by
  rw [openNext?_eq]
  refine carries_alter? (carriesValue_of (fun _ => rfl) fun origin => ?_)
  exact ⟨origin, _, carries_none, fun _ => rfl⟩

theorem mem_of_find?_eq_none (h : es.find? q = none) : ∀ a ∈ es, a.1 ≠ q := by
  induction es with
  | nil => simp
  | cons a rest ih =>
    rw [find?_cons] at h
    split at h
    · cases h
    · next hne => exact List.forall_mem_cons.mpr ⟨Ne.symm hne, ih h⟩

/-- Two changes under one key that lead to related values make the same entries differ there. -/
theorem differ_alter? {new new' : Option Value} {step step' : Value → Option Value}
    (hnew : ∀ {w}, new = some w → ∃ w', new' = some w' ∧ R w w')
    (hstep : ∀ {x w}, es.find? q = some x → step x = some w → ∃ w', step' x = some w' ∧ R w w')
    (hr : alter? q new step es = some r) :
    ∃ r', alter? q new' step' es = some r' ∧ DifferBelow q R r r' := by
  unfold alter? at hr ⊢
  cases hfind : es.find? q with
  | none =>
    simp only [hfind, Option.map_eq_some_iff] at hr ⊢
    obtain ⟨w, hw, rfl⟩ := hr
    obtain ⟨w', hw', hR⟩ := hnew hw
    refine ⟨_, ⟨w', hw', rfl⟩, ?_, by simp [find?_add, hfind]⟩
    have hsame : List.Forall₂ (Alike q R) es es := List.forall₂_same.mpr fun a ha =>
      .other (mem_of_find?_eq_none hfind a ha)
    exact List.rel_append hsame (.cons (.here hR) .nil)
  | some x =>
    simp only [hfind, Option.map_eq_some_iff] at hr ⊢
    obtain ⟨w, hw, rfl⟩ := hr
    obtain ⟨w', hw', hR⟩ := hstep hfind hw
    refine ⟨_, ⟨w', hw', rfl⟩, ?_, by simp [find?_replace, hfind]⟩
    unfold replace
    rw [List.forall₂_map_left_iff, List.forall₂_map_right_iff]
    refine List.forall₂_same.mpr fun a _ => ?_
    split
    · exact .here hR
    · next hne => exact .other hne

theorem differ_insert?_one {k : String} {path : List String} (hv : DifferAt text text' path v v')
    (hr : insert? v [k] es = some r) :
    ∃ r', insert? v' [k] es = some r' ∧ DifferBelow k (DifferAt text text' path) r r' := by
  rw [insert?_singleton] at hr ⊢
  exact differ_alter? (fun h => ⟨_, rfl, Option.some.inj h ▸ hv⟩) (fun _ h => by cases h) hr

theorem differ_insert?_string {k : String} (hr : insert? (.string text) [k] es = some r) :
    ∃ r', insert? (.string text') [k] es = some r' ∧
      DifferBelow k (DifferAt text text' []) r r' :=
  differ_insert?_one ⟨rfl, rfl⟩ hr

/-- Changes of the entries of a table that make them differ make the table differ. -/
theorem differ_table {k : String} {rest : List String} {origin : Origin} {inner : Entries}
    {change change' : Entries → Option Entries}
    (h : ∀ {r}, change inner = some r →
      ∃ r', change' inner = some r' ∧ DifferBelow k (DifferAt text text' rest) r r') {w : Value}
    (hw : (change inner).map (.table origin) = some w) :
    ∃ w', (change' inner).map (.table origin) = some w' ∧
      DifferAt text text' (k :: rest) w w' := by
  obtain ⟨r, hr, rfl⟩ := Option.map_eq_some_iff.mp hw
  obtain ⟨r', hr', hdiffer⟩ := h hr
  exact ⟨_, Option.map_eq_some_iff.mpr ⟨r', hr', rfl⟩, origin, r, r', rfl, rfl, hdiffer⟩

theorem differ_insert?_two {k : String} (hr : insert? (.string text) [q, k] es = some r) :
    ∃ r', insert? (.string text') [q, k] es = some r' ∧
      DifferBelow q (DifferAt text text' [k]) r r' := by
  rw [insert?_cons] at hr ⊢
  refine differ_alter? (differ_table differ_insert?_string) (fun {x w} _ hw => ?_) hr
  cases x with
  | table origin inner =>
    cases origin with
    | dotted => exact differ_table differ_insert?_string hw
    | _ => cases hw
  | _ => cases hw

theorem differ_update?_one {k : String} (hlist : ∀ v, es.find? q = some v → v.isList = false)
    (hr : update? (insert? (.string text) [k]) [q] es = some r) :
    ∃ r', update? (insert? (.string text') [k]) [q] es = some r' ∧
      DifferBelow q (DifferAt text text' [k]) r r' := by
  rw [update?_cons] at hr ⊢
  refine differ_alter? (differ_table differ_insert?_string) (fun {x w} hx hw => ?_) hr
  cases x with
  | table origin inner =>
    by_cases horigin : origin = .inline
    · simp [updateInto?, horigin] at hw
    · simp only [updateInto?, horigin, if_false] at hw ⊢
      exact differ_table differ_insert?_string hw
  | tables items => cases hlist _ hx
  | _ => cases hw

end Entries
end DiceBot.Toml
