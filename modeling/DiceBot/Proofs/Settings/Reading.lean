import DiceBot.Proofs.Settings.Interpolation
import DiceBot.Proofs.Text.Split

/-!
How a text with names in braces is read: as plain text with names between it, in one way only. The
values of the variables are put in the places of the names, and no value is read itself.
-/

namespace DiceBot.Interpolation

/-- Text in which no name starts: it has no dollar sign before an opening brace. -/
def Plain (s : List Char) : Prop := ¬['$', '{'] <:+: s

/-- A text as it is read. After plain text it ends, or it goes on with a name in braces and what is
read behind that, or with an opening brace that is not closed. -/
inductive Reading where
  | ends (s : List Char) (plain : Plain s)
  | goesOn (s : List Char) (plain : Plain s) (name : String) (closed : '}' ∉ name.toList)
    (behind : Reading)
  | staysOpen (s : List Char) (plain : Plain s) (tail : List Char) (unclosed : '}' ∉ tail)

namespace Reading

/-- The text that is read so. -/
def text : Reading → List Char
  | ends s _ => s
  | goesOn s _ name _ behind => s ++ '$' :: '{' :: (name.toList ++ '}' :: behind.text)
  | staysOpen s _ tail _ => s ++ '$' :: '{' :: tail

def names : Reading → List String
  | ends _ _ => []
  | goesOn _ _ name _ behind => name :: behind.names
  | staysOpen _ _ _ _ => []

def isClosed : Reading → Bool
  | ends _ _ => true
  | goesOn _ _ _ _ behind => behind.isClosed
  | staysOpen _ _ _ _ => false

/-- The text with values in the places of the names, up to a brace that is not closed. -/
def filled (value : String → String) : Reading → List Char
  | ends s _ => s
  | goesOn s _ name _ behind => s ++ ((value name).toList ++ behind.filled value)
  | staysOpen s _ _ _ => s

theorem filled_congr {value value' : String → String} {r : Reading}
    (h : ∀ name ∈ r.names, value name = value' name) : r.filled value = r.filled value' := by
  induction r with
  | ends s plain => rfl
  | goesOn s plain name closed behind ih =>
    rw [filled, filled, h name List.mem_cons_self, ih fun n hn => h n (List.mem_cons_of_mem _ hn)]
  | staysOpen s plain tail unclosed => rfl

end Reading

theorem plain_nil : Plain [] := by
  simp [Plain]

theorem plain_cons_iff {c : Char} {s : List Char} :
    Plain (c :: s) ↔ ¬['$', '{'] <+: c :: s ∧ Plain s := by
  rw [Plain, List.infix_cons_iff, not_or, Plain]

/-- What stands behind plain text: nothing, or an opening brace with its dollar sign. -/
def Opens (s : List Char) : Prop := s = [] ∨ ['$', '{'] <+: s

theorem opens_cons (s : List Char) : Opens ('$' :: '{' :: s) := .inr ⟨s, rfl⟩

/-- An opening brace is the first one of the text, if the text before it is plain. -/
theorem eq_nil_of_plain_append {a c y : List Char} (h : Plain (a ++ c)) (hy : Opens y)
    (hcy : Opens (c ++ y)) : c = [] := by
  rcases hcy with he | ⟨rest, he⟩
  · exact (List.append_eq_nil_iff.mp he).1
  match c with
  | [] => rfl
  | [d] =>
    obtain ⟨-, he⟩ := List.cons.inj he
    rcases hy with rfl | ⟨rest', rfl⟩ <;> cases he
  | d :: d' :: c =>
    cases he
    exact absurd ⟨a, c, by simp⟩ h

/-- Plain text ends at the first opening brace, so it can be told from what stands behind it. -/
theorem plain_append_inj {a b x y : List Char} (ha : Plain a) (hb : Plain b) (hx : Opens x)
    (hy : Opens y) (h : a ++ x = b ++ y) : a = b ∧ x = y := by
  rcases List.append_eq_append_iff.mp h with ⟨c, rfl, rfl⟩ | ⟨c, rfl, rfl⟩
  · obtain rfl := eq_nil_of_plain_append hb hy hx
    exact ⟨(List.append_nil a).symm, rfl⟩
  · obtain rfl := eq_nil_of_plain_append ha hx hy
    exact ⟨List.append_nil b, rfl⟩

namespace Reading

/-- A text is read in one way at most. -/
theorem text_injective {r r' : Reading} (h : r.text = r'.text) : r = r' := by
  induction r generalizing r' with
  | ends s plain =>
    rw [text, ← List.append_nil s] at h
    cases r' with
    | ends s' plain' =>
      obtain ⟨rfl, -⟩ := plain_append_inj plain plain' (.inl rfl) (.inl rfl)
        (h.trans (List.append_nil s').symm)
      rfl
    | goesOn s' plain' name' closed' behind' =>
      cases (plain_append_inj plain plain' (.inl rfl) (opens_cons _) h).2
    | staysOpen s' plain' tail' unclosed' =>
      cases (plain_append_inj plain plain' (.inl rfl) (opens_cons _) h).2
  | goesOn s plain name closed behind ih =>
    cases r' with
    | ends s' plain' =>
      cases (plain_append_inj plain plain' (opens_cons _) (.inl rfl)
        (h.trans (List.append_nil s').symm)).2
    | goesOn s' plain' name' closed' behind' =>
      obtain ⟨rfl, hrest⟩ := plain_append_inj plain plain' (opens_cons _) (opens_cons _) h
      simp only [List.cons.injEq, true_and] at hrest
      have hsplit := Text.splitFirst_eq_some_iff.mpr ⟨hrest, closed'⟩
      obtain ⟨hname, hbehind⟩ := Prod.mk.inj (Option.some.inj
        ((Text.splitFirst_eq_some_iff.mpr ⟨rfl, closed⟩).symm.trans hsplit))
      obtain rfl := String.toList_injective hname
      obtain rfl := ih hbehind
      rfl
    | staysOpen s' plain' tail' unclosed' =>
      obtain ⟨-, hrest⟩ := plain_append_inj plain plain' (opens_cons _) (opens_cons _) h
      cases hrest
      exact absurd (List.mem_append_right _ List.mem_cons_self) unclosed'
  | staysOpen s plain tail unclosed =>
    cases r' with
    | ends s' plain' =>
      cases (plain_append_inj plain plain' (opens_cons _) (.inl rfl)
        (h.trans (List.append_nil s').symm)).2
    | goesOn s' plain' name' closed' behind' =>
      obtain ⟨-, hrest⟩ := plain_append_inj plain plain' (opens_cons _) (opens_cons _) h
      cases hrest
      exact absurd (List.mem_append_right _ List.mem_cons_self) unclosed
    | staysOpen s' plain' tail' unclosed' =>
      obtain ⟨rfl, hrest⟩ := plain_append_inj plain plain' (opens_cons _) (opens_cons _) h
      cases hrest
      rfl

/-- A character before a reading belongs to its plain text, unless it opens a name with it. -/
theorem exists_text_cons {c : Char} {r : Reading} (h : ¬['$', '{'] <+: c :: r.text) :
    ∃ r' : Reading, r'.text = c :: r.text := by
  have hplain : ∀ {s x : List Char}, Plain s → ¬['$', '{'] <+: c :: (s ++ x) → Plain (c :: s) := by
    intro s x hs hc
    refine plain_cons_iff.mpr ⟨fun hp => hc ?_, hs⟩
    exact hp.trans (List.prefix_append (c :: s) x)
  cases r with
  | ends s plain =>
    rw [text, ← List.append_nil s] at h
    exact ⟨.ends (c :: s) (hplain plain h), rfl⟩
  | goesOn s plain name closed behind =>
    exact ⟨.goesOn (c :: s) (hplain plain h) name closed behind, rfl⟩
  | staysOpen s plain tail unclosed =>
    exact ⟨.staysOpen (c :: s) (hplain plain h) tail unclosed, rfl⟩

/-- Every text can be read. -/
theorem exists_text (s : List Char) : ∃ r : Reading, r.text = s := by
  induction hn : s.length using Nat.strong_induction_on generalizing s with
  | _ n ih =>
    subst hn
    cases s with
    | nil => exact ⟨.ends [] plain_nil, rfl⟩
    | cons c s =>
      by_cases hopen : ['$', '{'] <+: c :: s
      · obtain ⟨rest, hrest⟩ := hopen
        cases hrest
        by_cases hclosed : '}' ∈ rest
        · obtain ⟨name, rest, rfl, hname⟩ := List.eq_append_cons_of_mem hclosed
          obtain ⟨behind, rfl⟩ := ih rest.length (by simp; omega) rest rfl
          refine ⟨.goesOn [] plain_nil (String.ofList name) (by simpa using hname) behind, ?_⟩
          simp [text]
        · exact ⟨.staysOpen [] plain_nil rest hclosed, rfl⟩
      · obtain ⟨r, rfl⟩ := ih s.length (Nat.lt_succ_self _) s rfl
        exact exists_text_cons hopen

end Reading

variable {env : Environment}

/-- Plain text stays as it is. -/
theorem expand_plain {s : List Char} (h : Plain s) : expand env .outside s = .ok s := by
  induction s with
  | nil => rfl
  | cons c s ih =>
    obtain ⟨hopen, hs⟩ := plain_cons_iff.mp h
    rw [expand.eq_4 _ _ _ fun rest hc hrest => hopen (by rw [hc, hrest]; exact ⟨rest, rfl⟩), ih hs]
    rfl

theorem expand_plain_append {s : List Char} (h : Plain s) (rest : List Char) :
    expand env .outside (s ++ '$' :: rest) =
      (expand env .outside ('$' :: rest)).map (s ++ ·) :=
  expand_append (expand_plain h) (by simp)

/-- A text is filled in along its reading: the first name without a value ends it, and a brace that
is not closed does if all names have values. -/
theorem expand_text (r : Reading) : expand env .outside r.text =
    match r.names.find? fun name => (env.text? name).isNone with
    | some name => .error (.missingVariable name)
    | none =>
      if r.isClosed then .ok (r.filled fun name => (env.text? name).getD "")
      else .error .openInterpolation := by
  induction r with
  | ends s plain => exact expand_plain plain
  | goesOn s plain name closed behind ih =>
    rw [Reading.text, expand_plain_append plain, Reading.names, List.find?_cons]
    cases hvalue : env.text? name with
    | none =>
      rw [expand_name_unset closed hvalue]
      rfl
    | some value =>
      rw [expand_name closed hvalue, ih]
      cases behind.names.find? fun name => (env.text? name).isNone with
      | some unset => rfl
      | none =>
        cases hclosed : behind.isClosed <;>
          simp [Reading.isClosed, Reading.filled, Except.map, hclosed, hvalue]
  | staysOpen s plain tail unclosed =>
    rw [Reading.text, expand_plain_append plain, expand_unclosed unclosed]
    rfl

theorem find?_unset_eq_none_iff {r : Reading} :
    r.names.find? (fun name => (env.text? name).isNone) = none ↔
      ∀ name ∈ r.names, env.text? name ≠ none := by
  simp [List.find?_eq_none]

/-- The first name of a reading that has no value. -/
theorem find?_unset_eq_some_iff {r : Reading} {name : String} :
    r.names.find? (fun name => (env.text? name).isNone) = some name ↔
      ∃ before after, r.names = before ++ name :: after ∧ env.text? name = none ∧
        ∀ n ∈ before, env.text? n ≠ none := by
  simp only [List.find?_eq_some_iff_append, Option.isNone_iff_eq_none, Bool.not_eq_true',
    Option.isNone_eq_false_iff, Option.isSome_iff_ne_none]
  constructor
  · rintro ⟨hname, before, after, hnames, hbefore⟩
    exact ⟨before, after, hnames, hname, hbefore⟩
  · rintro ⟨before, after, hnames, hname, hbefore⟩
    exact ⟨hname, before, after, hnames, hbefore⟩

/-- The values that a reading is filled with are those of the environment, if there are such. -/
theorem exists_values_iff {r : Reading} {result : String} :
    (∃ value : String → String, (∀ name ∈ r.names, env.text? name = some (value name)) ∧
      result = String.ofList (r.filled value)) ↔
    (∀ name ∈ r.names, env.text? name ≠ none) ∧
      result = String.ofList (r.filled fun name => (env.text? name).getD "") := by
  constructor
  · rintro ⟨value, hvalue, rfl⟩
    exact ⟨fun name hname => by simp [hvalue name hname],
      congrArg String.ofList (Reading.filled_congr fun name hname => by simp [hvalue name hname])⟩
  · rintro ⟨hset, rfl⟩
    refine ⟨_, fun name hname => ?_, rfl⟩
    obtain ⟨value, hvalue⟩ := Option.ne_none_iff_exists'.mp (hset name hname)
    simp [hvalue]

/-- What a text comes to when it is filled in along its reading. -/
inductive Filled (env : Environment) (text : String) : Except SettingsError String → Prop
  | done {r : Reading} (reads : r.text = text.toList) (closed : r.isClosed)
    {value : String → String} (values : ∀ name ∈ r.names, env.text? name = some (value name)) :
    Filled env text (.ok (String.ofList (r.filled value)))
  | unset {r : Reading} (reads : r.text = text.toList) {before after : List String} {name : String}
    (names : r.names = before ++ name :: after) (set : ∀ n ∈ before, env.text? n ≠ none)
    (unset : env.text? name = none) : Filled env text (.error (.missingVariable name))
  | staysOpen {r : Reading} (reads : r.text = text.toList)
    (set : ∀ name ∈ r.names, env.text? name ≠ none) (unclosed : ¬r.isClosed) :
    Filled env text (.error .openInterpolation)

theorem filled_iff {text : String} {result : Except SettingsError String} :
    env.interpolate text = result ↔ Filled env text result := by
  unfold Environment.interpolate
  constructor
  · rintro rfl
    obtain ⟨r, hr⟩ := Reading.exists_text text.toList
    rw [← hr, expand_text]
    cases hfind : r.names.find? fun name => (env.text? name).isNone with
    | some name =>
      obtain ⟨before, after, hnames, hunset, hset⟩ := find?_unset_eq_some_iff.mp hfind
      exact .unset hr hnames hset hunset
    | none =>
      have hset := find?_unset_eq_none_iff.mp hfind
      cases hclosed : r.isClosed with
      | true =>
        refine .done hr hclosed fun name hname => ?_
        obtain ⟨value, hvalue⟩ := Option.ne_none_iff_exists'.mp (hset name hname)
        simp [hvalue]
      | false => exact .staysOpen hr hset (by simp [hclosed])
  · intro h
    cases h with
    | done reads closed values =>
      obtain ⟨hset, hfilled⟩ := exists_values_iff.mp ⟨_, values, rfl⟩
      rw [← reads, expand_text, find?_unset_eq_none_iff.mpr hset, hfilled]
      simp only [closed, if_true]
      rfl
    | unset reads names set unset =>
      rw [← reads, expand_text, find?_unset_eq_some_iff.mpr ⟨_, _, names, unset, set⟩]
      rfl
    | staysOpen reads set unclosed =>
      rw [← reads, expand_text, find?_unset_eq_none_iff.mpr set]
      simp only [unclosed]
      rfl

theorem Filled.unique {text filled filled' : String} (h : Filled env text (.ok filled))
    (h' : Filled env text (.ok filled')) : filled = filled' :=
  Except.ok.inj ((filled_iff.mpr h).symm.trans (filled_iff.mpr h'))

/-- A text has one reading, and it is filled in along that: with the values of the names between the
plain text, whatever the values hold. It is not filled in when a name has no value, the first such
name being told, nor when only a brace is not closed. -/
theorem interpolate_substitutes (env : Environment) (text : String) :
    ∃ r : Reading, r.text = text.toList ∧ (∀ r' : Reading, r'.text = text.toList → r' = r) ∧
      (∀ result, env.interpolate text = .ok result ↔ r.isClosed ∧
        ∃ value : String → String, (∀ name ∈ r.names, env.text? name = some (value name)) ∧
          result = String.ofList (r.filled value)) ∧
      (∀ name, env.interpolate text = .error (.missingVariable name) ↔
        ∃ before after, r.names = before ++ name :: after ∧ env.text? name = none ∧
          ∀ n ∈ before, env.text? n ≠ none) ∧
      (env.interpolate text = .error .openInterpolation ↔
        (∀ name ∈ r.names, env.text? name ≠ none) ∧ ¬r.isClosed) := by
  obtain ⟨r, hr⟩ := Reading.exists_text text.toList
  refine ⟨r, hr, fun r' hr' => Reading.text_injective (hr'.trans hr.symm), ?_⟩
  simp only [Environment.interpolate, ← hr, expand_text, exists_values_iff,
    ← find?_unset_eq_none_iff, ← find?_unset_eq_some_iff]
  cases r.names.find? fun name => (env.text? name).isNone with
  | some name => simp [Except.map]
  | none => cases r.isClosed <;> simp [Except.map, eq_comm]

-- A dollar sign before an opening brace is plain, and a value with a name in braces stays as it is.
example : (Environment.ofList [("A", some "${B}")]).interpolate "$${A}" = .ok "$${B}" := by
  decide +kernel

end DiceBot.Interpolation
