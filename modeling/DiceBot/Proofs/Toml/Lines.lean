import DiceBot.Proofs.Toml.Difference

/-!
Reading the lines of documents that differ in one text.
-/

namespace DiceBot.Toml

open Entries

variable {text text' : String}

theorem carries_openHeader? (array : Bool) (path : List String) :
    Carries text text' (openHeader? array path) := by
  unfold openHeader?
  cases path.getLast? with
  | none => exact carries_none
  | some key =>
    cases array with
    | true => exact carries_update? (carries_openNext? key) _
    | false => exact carries_update? (carries_openTable? key) _

/-- A change after a reading that does not see the entries. -/
theorem carries_after {α : Type} (read : Option α) {change : α → Entries → Option Entries}
    (h : ∀ a, Carries text text' (change a)) :
    Carries text text' fun root => read.bind fun a => change a root := by
  cases read with
  | none => exact carries_none
  | some a => exact h a

/-- Reading further lines carries a difference in a text. -/
theorem carries_takeLines? (fuel : Nat) (path : List String) (s : List Char) :
    Carries text text' fun root => takeLines? fuel path root s := by
  induction fuel generalizing path s with
  | zero => exact carries_none
  | succ fuel ih =>
    have hheader (array : Bool) (key : List String) (rest : List Char) :
        Carries text text' fun root =>
          (openHeader? array key root).bind fun root => takeLines? fuel key root rest :=
      (carries_openHeader? array key).bind (ih key rest)
    simp only [takeLines?]
    split
    · exact carries_some
    · exact carries_after _ fun rest => ih path rest
    · exact ih path _
    · exact ih path _
    · split
      · exact carries_after _ fun rest => hheader true _ rest
      · exact carries_none
    · split
      · exact carries_after _ fun rest => hheader false _ rest
      · exact carries_none
    · split
      · split
        · exact carries_none
        · next value _ _ =>
          exact carries_after _ fun rest =>
            (carries_update? (carries_insert? value _) path).bind (ih path rest)
      · exact carries_none

/-- More fuel than a document has lines changes nothing. -/
theorem takeLines?_mono {fuel more : Nat} {path : List String} {root document : Entries}
    {s : List Char} (h : takeLines? fuel path root s = some document) (hmore : fuel ≤ more) :
    takeLines? more path root s = some document := by
  induction fuel generalizing more path root s with
  | zero => cases h
  | succ fuel ih =>
    obtain ⟨more, rfl⟩ : ∃ n, more = n + 1 := ⟨more - 1, by omega⟩
    have hle : fuel ≤ more := by omega
    -- what a line does to the entries does not depend on the fuel, so only the end of it does
    have hline {key : List String} (change : Entries → Option Entries) (after : List Char)
        (h : ((afterLine? after).bind fun rest => (change root).bind fun root =>
          takeLines? fuel key root rest) = some document) :
        ((afterLine? after).bind fun rest => (change root).bind fun root =>
          takeLines? more key root rest) = some document := by
      simp only [Option.bind_eq_some_iff] at h ⊢
      obtain ⟨rest, hrest, root', hroot, h⟩ := h
      exact ⟨rest, hrest, root', hroot, ih h hle⟩
    unfold takeLines? at h ⊢
    generalize skipSpaces s = t at h ⊢
    split at h
    · exact h
    · obtain ⟨rest, hrest, h⟩ := Option.bind_eq_some_iff.mp h
      exact Option.bind_eq_some_iff.mpr ⟨rest, hrest, ih h hle⟩
    · exact ih h hle
    · exact ih h hle
    · split at h
      · exact hline _ _ h
      · cases h
    · split at h
      · exact hline _ _ h
      · cases h
    · split at h
      · split at h
        · cases h
        · exact hline _ _ h
      · cases h

/-- A character that stands for itself in a string with escapes. -/
def isPlain (c : Char) : Bool := isPrintable c && c != '"' && c != '\\'

theorem isPlain_iff {c : Char} :
    isPlain c = true ↔ isPrintable c = true ∧ c ≠ '"' ∧ c ≠ '\\' := by
  simp [isPlain, and_assoc]

theorem takeEscaped?_plain {value rest : List Char} (h : ∀ c ∈ value, isPlain c) :
    takeEscaped? false (value ++ '"' :: rest) .nothing = some (value, rest) := by
  induction value with
  | nil =>
    change takeEscaped? false ('"' :: rest) .nothing = _
    unfold takeEscaped?
    split <;> grind
  | cons c value ih =>
    obtain ⟨hprintable, hquote, hescape⟩ := isPlain_iff.mp (h c List.mem_cons_self)
    have hreturn : c ≠ '\r' := by
      rintro rfl
      exact absurd hprintable (by decide)
    change takeEscaped? false (c :: (value ++ '"' :: rest)) .nothing = _
    unfold takeEscaped?
    split <;> simp_all [keep]

/-- A string of plain characters is read as they are. -/
theorem takeValue?_plain {fuel depth : Nat} {value rest : List Char} (h : ∀ c ∈ value, isPlain c)
    (hrest : rest.head? ≠ some '"') :
    takeValue? (fuel + 1) depth ('"' :: (value ++ '"' :: rest)) =
      some (.string (String.ofList value), rest) := by
  have hstring : takeString? ('"' :: (value ++ '"' :: rest)) =
      some (String.ofList value, rest) := by
    have hone : takeEscaped? false (value ++ '"' :: rest) .nothing = some (value, rest) :=
      takeEscaped?_plain h
    unfold takeString?
    cases value with
    | nil =>
      cases rest with
      | nil => simpa using hone
      | cons c rest =>
        have hc : c ≠ '"' := by simpa using hrest
        split <;> grind
    | cons c value =>
      have hc : c ≠ '"' := (isPlain_iff.mp (h c List.mem_cons_self)).2.1
      split <;> grind
  rw [takeValue?]
  simp [hstring]

def startsKey (c : Char) : Bool := isBareKey c || c = '"' || c = '\''

/-- A key as it is written before an equals sign. -/
structure IsKey (written : List Char) (key : List String) : Prop where
  starts : ∃ c rest, written = c :: rest ∧ startsKey c
  reads : ∀ rest, takeKey? (written ++ '=' :: rest) = some (key, '=' :: rest)

theorem skipSpaces_append {spaces s : List Char} (h : ∀ c ∈ spaces, isSpace c) :
    skipSpaces (spaces ++ s) = skipSpaces s := by
  induction spaces with
  | nil => rfl
  | cons c rest ih =>
    obtain ⟨hc, hrest⟩ := List.forall_mem_cons.mp h
    change List.dropWhile isSpace (c :: (rest ++ s)) = _
    rw [List.dropWhile_cons_of_pos hc]
    exact ih hrest

theorem isBareKey_of_isSpace {c : Char} (h : isSpace c) : isBareKey c = false := by
  simp only [isSpace, Bool.or_eq_true, decide_eq_true_eq] at h
  rcases h with rfl | rfl <;> decide

theorem takeSimpleKey?_bare {c : Char} {name rest : List Char}
    (hname : ∀ d ∈ c :: name, isBareKey d) (hrest : ∀ d ∈ rest.head?, ¬isBareKey d) :
    takeSimpleKey? (c :: name ++ rest) = some (String.ofList (c :: name), rest) := by
  have htake : (c :: name ++ rest).takeWhile isBareKey = c :: name := by
    rw [List.takeWhile_append_of_pos hname]
    cases rest with
    | nil => simp
    | cons d rest => rw [List.takeWhile_cons_of_neg (hrest d rfl), List.append_nil]
  have hdrop : (c :: name ++ rest).dropWhile isBareKey = rest := by
    rw [List.dropWhile_append_of_pos hname]
    cases rest with
    | nil => rfl
    | cons d rest => exact List.dropWhile_cons_of_neg (hrest d rfl)
  have hc := hname c List.mem_cons_self
  have hquote : c ≠ '"' := fun heq => absurd hc (heq ▸ by decide)
  have hquote' : c ≠ '\'' := fun heq => absurd hc (heq ▸ by decide)
  unfold takeSimpleKey?
  rw [htake, hdrop]
  split <;> simp_all

/-- A bare key ends at what can neither be a part of it nor start another one. -/
theorem takeKey?_bare {c d : Char} {name : List Char} (spaces rest : List Char)
    (hname : ∀ a ∈ c :: name, isBareKey a) (hspaces : ∀ a ∈ spaces, isSpace a)
    (hd : isBareKey d = false ∧ isSpace d = false ∧ d ≠ '.') :
    takeKey? (c :: name ++ (spaces ++ d :: rest)) =
      some ([String.ofList (c :: name)], d :: rest) := by
  have hspace : isSpace c = false := by
    cases hs : isSpace c with
    | false => rfl
    | true => cases (hname c List.mem_cons_self).symm.trans (isBareKey_of_isSpace hs)
  have hstop : ∀ e ∈ (spaces ++ d :: rest).head?, ¬isBareKey e := by
    cases spaces with
    | nil => simp [hd.1]
    | cons a spaces => simp [isBareKey_of_isSpace (hspaces a List.mem_cons_self)]
  have hsimple := takeSimpleKey?_bare hname hstop
  have hskip : skipSpaces (c :: name ++ (spaces ++ d :: rest)) =
      c :: name ++ (spaces ++ d :: rest) := List.dropWhile_cons_of_neg (by simp [hspace])
  have hend : skipSpaces (spaces ++ d :: rest) = d :: rest := by
    rw [skipSpaces_append hspaces]
    exact List.dropWhile_cons_of_neg (by simp [hd.2.1])
  have hparts (fuel : Nat) : takeKeyParts? (fuel + 1) (c :: name ++ (spaces ++ d :: rest)) =
      some ([String.ofList (c :: name)], d :: rest) := by
    simp only [takeKeyParts?, hskip, hsimple, hend]
    split
    · next heq => exact absurd (List.cons.inj heq).1 hd.2.2
    · rfl
  exact hparts _

/-- A bare key with spaces after it. -/
theorem isKey_bare {c : Char} {name spaces : List Char} (hname : ∀ d ∈ c :: name, isBareKey d)
    (hspaces : ∀ d ∈ spaces, isSpace d) :
    IsKey (c :: name ++ spaces) [String.ofList (c :: name)] where
  starts := ⟨c, name ++ spaces, rfl, by simp [startsKey, hname c List.mem_cons_self]⟩
  reads rest := by
    rw [List.append_assoc]
    exact takeKey?_bare spaces rest hname hspaces (by decide)

/-- A bare key whose characters were checked. -/
theorem isKey_of_all {c : Char} {name spaces : List Char}
    (h : (c :: name).all isBareKey && spaces.all isSpace) :
    IsKey (c :: name ++ spaces) [String.ofList (c :: name)] := by
  rw [Bool.and_eq_true, List.all_eq_true, List.all_eq_true] at h
  exact isKey_bare h.1 h.2

theorem takeLines?_header {fuel : Nat} {path : List String} {root : Entries} {c : Char}
    {name : List Char} (s : List Char) (hname : ∀ d ∈ c :: name, isBareKey d) :
    takeLines? (fuel + 1) path root ('[' :: (c :: name ++ [']', '\n']) ++ s) =
      (openHeader? false [String.ofList (c :: name)] root).bind fun root =>
        takeLines? fuel [String.ofList (c :: name)] root s := by
  have hkey := takeKey?_bare (d := ']') [] ('\n' :: s) hname (by simp) (by decide)
  have hc : c ≠ '[' := fun heq => absurd (hname c List.mem_cons_self) (heq ▸ by decide)
  have htext : '[' :: (c :: name ++ [']', '\n']) ++ s =
      '[' :: (c :: name ++ ([] ++ ']' :: '\n' :: s)) := by simp
  have hskip : skipSpaces ('[' :: (c :: name ++ ([] ++ ']' :: '\n' :: s))) =
      '[' :: (c :: name ++ ([] ++ ']' :: '\n' :: s)) := rfl
  rw [htext, takeLines?.eq_def]
  simp only [hskip]
  split <;> simp_all
  rfl

/-- A line with a key and a string of plain characters. -/
def textLine (written spaces value after : List Char) : List Char :=
  written ++ '=' :: (spaces ++ '"' :: (value ++ '"' :: after))

theorem IsKey.skipSpaces_eq {written : List Char} {key : List String} (h : IsKey written key)
    (s : List Char) : skipSpaces (written ++ s) = written ++ s := by
  obtain ⟨c, rest, rfl, hc⟩ := h.starts
  have hspace : isSpace c = false := by
    cases hs : isSpace c with
    | false => rfl
    | true =>
      simp only [isSpace, Bool.or_eq_true, decide_eq_true_eq] at hs
      rcases hs with rfl | rfl <;> exact absurd hc (by decide)
  exact List.dropWhile_cons_of_neg (by simp [hspace])

/-- A line that starts with a key is read as a value behind an equals sign. -/
theorem takeLines?_key {fuel : Nat} {path key : List String} {root : Entries} {written : List Char}
    (hkey : IsKey written key) (s : List Char) :
    takeLines? (fuel + 1) path root (written ++ '=' :: s) =
      (takeValue? (s.length + 1) 0 (skipSpaces s)).bind fun taken =>
        (afterLine? taken.2).bind fun rest =>
          (root.update? (insert? taken.1 key) path).bind fun root =>
            takeLines? fuel path root rest := by
  have hskip := hkey.skipSpaces_eq ('=' :: s)
  obtain ⟨c, rest, rfl, hc⟩ := hkey.starts
  have hne (d : Char) (hd : startsKey d = false) : c ≠ d := fun heq => by simp [← heq, hc] at hd
  rw [takeLines?.eq_def]
  simp only [hskip]
  have hreads := hkey.reads s
  have := hne '#' (by decide)
  have := hne '\n' (by decide)
  have := hne '\r' (by decide)
  have := hne '[' (by decide)
  split <;> simp_all
  cases takeValue? (s.length + 1) 0 (skipSpaces s) <;> rfl

theorem takeLines?_textLine {fuel : Nat} {path key : List String} {root : Entries}
    {written spaces value after : List Char} (hkey : IsKey written key)
    (hspaces : ∀ c ∈ spaces, isSpace c) (hvalue : ∀ c ∈ value, isPlain c)
    (hafter : after.head? ≠ some '"') :
    takeLines? (fuel + 1) path root (textLine written spaces value after) =
      (afterLine? after).bind fun rest =>
        (root.update? (insert? (.string (String.ofList value)) key) path).bind fun root =>
          takeLines? fuel path root rest := by
  have hskip : skipSpaces ('"' :: (value ++ '"' :: after)) = '"' :: (value ++ '"' :: after) := rfl
  rw [textLine, takeLines?_key hkey, skipSpaces_append hspaces, hskip,
    takeValue?_plain hvalue hafter, Option.bind_some]

/-- A text that is read as whole lines whatever follows it: then the table at the path is open, and
these are the entries so far. -/
def Leads (before : List Char) (path : List String) (root : Entries) : Prop :=
  ∃ n ≤ before.length, ∀ fuel s,
    takeLines? (fuel + n) [] [] (before ++ s) = takeLines? fuel path root s

theorem leads_nil : Leads [] [] [] := ⟨0, Nat.le_refl 0, fun _ _ => rfl⟩

/-- A line is read after the lines before it. -/
theorem Leads.line {before line : List Char} {path path' : List String} {root r : Entries}
    (h : Leads before path root) (hline : line ≠ [])
    (hstep : ∀ fuel s,
      takeLines? (fuel + 1) path root (line ++ s) = takeLines? fuel path' r s) :
    Leads (before ++ line) path' r := by
  obtain ⟨n, hn, hread⟩ := h
  have hpos := List.length_pos_of_ne_nil hline
  refine ⟨n + 1, by rw [List.length_append]; omega, fun fuel s => ?_⟩
  rw [List.append_assoc, show fuel + (n + 1) = fuel + 1 + n by omega, hread, hstep]

theorem Leads.header {before name : List Char} {c : Char} {path : List String} {root r : Entries}
    (h : Leads before path root) (hname : ∀ d ∈ c :: name, isBareKey d)
    (hr : openHeader? false [String.ofList (c :: name)] root = some r) :
    Leads (before ++ '[' :: (c :: name ++ [']', '\n'])) [String.ofList (c :: name)] r :=
  h.line (by simp) fun fuel s => by rw [takeLines?_header s hname, hr, Option.bind_some]

theorem Leads.entry {before written spaces value : List Char} {path key : List String}
    {root r : Entries} (h : Leads before path root) (hkey : IsKey written key)
    (hspaces : ∀ c ∈ spaces, isSpace c) (hvalue : ∀ c ∈ value, isPlain c)
    (hr : root.update? (insert? (.string (String.ofList value)) key) path = some r) :
    Leads (before ++ textLine written spaces value ['\n']) path r := by
  refine h.line (by simp [textLine]) fun fuel s => ?_
  have happend : textLine written spaces value ['\n'] ++ s =
      textLine written spaces value ('\n' :: s) := by simp [textLine]
  have hend : afterLine? ('\n' :: s) = some s := rfl
  rw [happend, takeLines?_textLine hkey hspaces hvalue (by simp), hend, hr]
  rfl

theorem Leads.head? {before : List Char} {path : List String} {root : Entries}
    (h : Leads before path root) : before.head? ≠ some '\uFEFF' := by
  obtain ⟨n, -, hread⟩ := h
  cases before with
  | nil => simp
  | cons c before =>
    rintro ⟨⟩
    have hone := hread 1 []
    rw [Nat.add_comm] at hone
    cases hone

/-- No byte order mark starts lines and a key behind them. -/
theorem Leads.head?_key {before written : List Char} {path key : List String} {root : Entries}
    (h : Leads before path root) (hkey : IsKey written key) (s : List Char) :
    (before ++ (written ++ s)).head? ≠ some '\uFEFF' := by
  obtain ⟨c, rest, rfl, hc⟩ := hkey.starts
  cases before with
  | nil =>
    rintro ⟨⟩
    exact absurd hc (by decide)
  | cons b before => exact h.head?

theorem parse?_eq {s : List Char} (h : s.head? ≠ some '\uFEFF') :
    parse? (String.ofList s) = takeLines? (s.length + 1) [] [] s := by
  unfold parse?
  rw [String.toList_ofList]
  split
  · cases h rfl
  · rfl

/-- A byte order mark at the start changes nothing. -/
theorem parse?_marked {mark s : List Char} (hmark : mark = [] ∨ mark = ['\uFEFF'])
    (h : s.head? ≠ some '\uFEFF') :
    parse? (String.ofList (mark ++ s)) = parse? (String.ofList s) := by
  obtain rfl | rfl := hmark
  · rfl
  · rw [parse?_eq h, List.singleton_append, parse?, String.toList_ofList]
    rfl

/-- Two documents with one line that gives different values are both read and differ in one text, if
the values make the entries before them differ in it. -/
theorem parse?_differ {before written s s' : List Char} {path path' key : List String}
    {root document : Entries} {q : String} (hbefore : Leads before path root)
    (hkey : IsKey written key) (hlength : s.length ≤ s'.length)
    (hvalues : ∀ {v rest}, takeValue? (s.length + 1) 0 (skipSpaces s) = some (v, rest) →
      ∃ v', takeValue? (s'.length + 1) 0 (skipSpaces s') = some (v', rest) ∧
        ∀ {r}, root.update? (insert? v key) path = some r →
          ∃ r', root.update? (insert? v' key) path = some r' ∧
            DifferBelow q (DifferAt text text' path') r r')
    (h : parse? (String.ofList (before ++ (written ++ '=' :: s))) = some document) :
    ∃ document', parse? (String.ofList (before ++ (written ++ '=' :: s'))) = some document' ∧
      DifferBelow q (DifferAt text text' path') document document' := by
  rw [parse?_eq (hbefore.head?_key hkey _)] at h
  rw [parse?_eq (hbefore.head?_key hkey _)]
  obtain ⟨n, hn, hread⟩ := hbefore
  -- a line takes one unit of fuel, and the lines before it take no more than their length
  obtain ⟨fuel, hfuel⟩ : ∃ fuel,
      (before ++ (written ++ '=' :: s)).length + 1 = fuel + 1 + n :=
    ⟨(before ++ (written ++ '=' :: s)).length - n, by simp; omega⟩
  obtain ⟨more, hmore⟩ : ∃ more,
      (before ++ (written ++ '=' :: s')).length + 1 = more + 1 + n :=
    ⟨(before ++ (written ++ '=' :: s')).length - n, by simp; omega⟩
  have hle : fuel ≤ more := by
    simp only [List.length_append, List.length_cons] at hfuel hmore
    omega
  rw [hfuel, hread, takeLines?_key hkey] at h
  rw [hmore, hread, takeLines?_key hkey]
  simp only [Option.bind_eq_some_iff] at h ⊢
  obtain ⟨⟨v, after⟩, hv, rest, hrest, r, hr, hlines⟩ := h
  obtain ⟨v', hv', hdiffer⟩ := hvalues hv
  obtain ⟨r', hr', hdiffer⟩ := hdiffer hr
  obtain ⟨document', hlines', hdiffer'⟩ :=
    (carries_takeLines? fuel path rest).differ hdiffer hlines
  exact ⟨document', ⟨(v', after), hv', rest, hrest, r', hr', takeLines?_mono hlines' hle⟩,
    hdiffer'⟩

end DiceBot.Toml
