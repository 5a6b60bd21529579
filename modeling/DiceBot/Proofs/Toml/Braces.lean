import DiceBot.Proofs.Toml.Lines

/-!
Strings that differ inside a table in braces, and the places of a document where a string gives an
entry of a table at the root.
-/

namespace DiceBot.Toml

open Entries

/-- More fuel than a reading needed changes nothing. -/
theorem take_mono {fuel more : Nat} (hmore : fuel ≤ more) :
    (∀ {depth : Nat} {s : List Char} {taken : Value × List Char},
      takeValue? fuel depth s = some taken → takeValue? more depth s = some taken) ∧
    (∀ {depth : Nat} {s : List Char} {taken : List Value × List Char},
      takeItems? fuel depth s = some taken → takeItems? more depth s = some taken) ∧
    ∀ {depth : Nat} {entries : Entries} {s : List Char} {taken : Entries × List Char},
      takePairs? fuel depth entries s = some taken →
        takePairs? more depth entries s = some taken := by
  induction fuel generalizing more with
  | zero => simp [takeValue?, takeItems?, takePairs?]
  | succ fuel ih =>
    obtain ⟨more, rfl⟩ : ∃ n, more = n + 1 := ⟨more - 1, by omega⟩
    obtain ⟨hvalue, hitems, hpairs⟩ := ih (Nat.le_of_succ_le_succ hmore)
    have hitems' {α : Type} {depth : Nat} {s : List Char} {f : List Value × List Char → α} {x : α}
        (h : (takeItems? fuel depth s).map f = some x) :
        (takeItems? more depth s).map f = some x := by
      obtain ⟨taken, htaken, rfl⟩ := Option.map_eq_some_iff.mp h
      rw [hitems htaken, Option.map_some]
    have hpairs' {depth : Nat} {s : List Char} {f : Entries × List Char → Value × List Char}
        {x : Value × List Char} (h : (takePairs? fuel depth [] s).map f = some x) :
        (takePairs? more depth [] s).map f = some x := by
      obtain ⟨taken, htaken, rfl⟩ := Option.map_eq_some_iff.mp h
      rw [hpairs htaken, Option.map_some]
    refine ⟨fun {depth s taken} h => ?_, fun {depth s taken} h => ?_,
      fun {depth entries s taken} h => ?_⟩
    · unfold takeValue? at h ⊢
      split at h <;> grind
    · unfold takeItems? at h ⊢
      split at h
      · cases h
      · next hitem =>
        rw [hvalue hitem]
        grind
    · unfold takePairs? at h ⊢
      split at h
      · split at h
        · cases h
        · next hitem =>
          rw [hvalue hitem]
          grind
      · cases h

variable {text text' : String}

/-- What follows a pair in braces: the closing brace, or a comma and further pairs. -/
def afterPair? (fuel depth : Nat) (entries : Entries) (s : List Char) :
    Option (Entries × List Char) :=
  match skipSpaces s with
  | '}' :: rest => some (entries, rest)
  | ',' :: rest => takePairs? fuel depth entries rest
  | _ => none

theorem takePairs?_key {fuel depth : Nat} {entries : Entries} {s rest : List Char}
    {key : List String} (hkey : takeKey? s = some (key, '=' :: rest)) :
    takePairs? (fuel + 1) depth entries s =
      (takeValue? fuel depth (skipSpaces rest)).bind fun taken =>
        (entries.insert? taken.1 key).bind fun entries =>
          afterPair? fuel depth entries taken.2 := by
  simp only [takePairs?, hkey]
  cases takeValue? fuel depth (skipSpaces rest) with
  | none => rfl
  | some taken =>
    simp only [Option.bind_some, afterPair?]
    cases entries.insert? taken.1 key with
    | none => rfl
    | some inserted =>
      simp only [Option.bind_some]
      split <;> simp_all

theorem exists_key_of_takePairs? {fuel depth : Nat} {entries : Entries} {s : List Char}
    {taken : Entries × List Char} (h : takePairs? (fuel + 1) depth entries s = some taken) :
    ∃ key rest, takeKey? s = some (key, '=' :: rest) := by
  rw [takePairs?] at h
  split at h
  · next key rest hkey => exact ⟨key, rest, hkey⟩
  · cases h

/-- Reading further pairs carries a difference in a text, and ends in the same place. -/
theorem differ_afterPair? {fuel depth : Nat} {key : String} {path : List String}
    {entries entries' r : Entries} {s rest : List Char}
    (hdiffer : DifferBelow key (DifferAt text text' path) entries entries')
    (h : afterPair? fuel depth entries s = some (r, rest)) :
    ∃ r', afterPair? fuel depth entries' s = some (r', rest) ∧
      DifferBelow key (DifferAt text text' path) r r' := by
  induction fuel generalizing entries entries' s with
  | zero =>
    unfold afterPair? at h ⊢
    split at h
    · cases h
      exact ⟨entries', rfl, hdiffer⟩
    · cases h
    · cases h
  | succ fuel ih =>
    unfold afterPair? at h ⊢
    split at h
    · cases h
      exact ⟨entries', rfl, hdiffer⟩
    · obtain ⟨name, after, hkey⟩ := exists_key_of_takePairs? h
      rw [takePairs?_key hkey] at h
      obtain ⟨taken, htaken, h⟩ := Option.bind_eq_some_iff.mp h
      obtain ⟨inserted, hinserted, h⟩ := Option.bind_eq_some_iff.mp h
      obtain ⟨inserted', hinserted', hdiffer'⟩ :=
        (carries_insert? taken.1 name).differ hdiffer hinserted
      obtain ⟨r', hr', hdiffer''⟩ := ih hdiffer' h
      refine ⟨r', ?_, hdiffer''⟩
      simp only [takePairs?_key hkey, htaken, hinserted', Option.bind_some, hr']
    · cases h

theorem skipSpaces_quote (s : List Char) : skipSpaces ('"' :: s) = '"' :: s := rfl

theorem skipSpaces_brace (s : List Char) : skipSpaces ('{' :: s) = '{' :: s := rfl

theorem takeKey?_spaces {spaces : List Char} (h : ∀ c ∈ spaces, isSpace c) (s : List Char) :
    takeKey? (spaces ++ s) = takeKey? s := by
  change takeKeyParts? (78 + 1) (spaces ++ s) = takeKeyParts? (78 + 1) s
  rw [takeKeyParts?, takeKeyParts?, skipSpaces_append h]

theorem takePairs?_spaces {fuel depth : Nat} {entries : Entries} {spaces : List Char}
    (h : ∀ c ∈ spaces, isSpace c) (s : List Char) :
    takePairs? fuel depth entries (spaces ++ s) = takePairs? fuel depth entries s := by
  cases fuel with
  | zero => rfl
  | succ fuel => simp only [takePairs?, takeKey?_spaces h]

/-- A text behind an opening brace that is read as whole pairs whatever pair follows it, if the fuel
lasts for its length: these are the entries so far. -/
def LeadsPairs (pairs : List Char) (entries : Entries) : Prop :=
  ∃ n ≤ pairs.length, ∀ {fuel : Nat} {written : List Char} {key : List String} (s : List Char),
    pairs.length ≤ fuel + n → IsKey written key →
      takeValue? (fuel + n + 1) 0 ('{' :: (pairs ++ (written ++ '=' :: s))) =
        (takePairs? fuel 1 entries (written ++ '=' :: s)).map fun taken =>
          (.table .inline taken.1, taken.2)

theorem leadsPairs_spaces {spaces : List Char} (h : ∀ c ∈ spaces, isSpace c) :
    LeadsPairs spaces [] := by
  refine ⟨0, Nat.zero_le _, fun {fuel written key} s _ hkey => ?_⟩
  have hskip : skipSpaces (spaces ++ (written ++ '=' :: s)) = written ++ '=' :: s := by
    rw [skipSpaces_append h, hkey.skipSpaces_eq]
  obtain ⟨c, rest, rfl, hc⟩ := hkey.starts
  have hbrace : c ≠ '}' := by
    rintro rfl
    exact absurd hc (by decide)
  rw [takeValue?]
  simp only [hskip]
  split
  · next h => exact absurd h (by decide)
  · split
    · next heq => exact absurd (List.cons.inj heq).1 hbrace
    · rfl

/-- A pair is read after the pairs before it. -/
theorem LeadsPairs.pair {pairs written value behind : List Char} {key : List String} {v : Value}
    {entries r : Entries} (h : LeadsPairs pairs entries) (hkey : IsKey written key)
    (hvalue : ∀ {fuel : Nat} (s : List Char), value.length ≤ fuel →
      takeValue? fuel 1 (skipSpaces (value ++ ',' :: s)) = some (v, ',' :: s))
    (hbehind : ∀ c ∈ behind, isSpace c) (hr : entries.insert? v key = some r) :
    LeadsPairs (pairs ++ (written ++ '=' :: (value ++ ',' :: behind))) r := by
  obtain ⟨n, hn, hread⟩ := h
  refine ⟨n + 1, by simp; omega, fun {fuel written' key'} s hfuel hkey' => ?_⟩
  simp only [List.length_append, List.length_cons] at hfuel
  simp only [List.append_assoc, List.cons_append]
  rw [show fuel + (n + 1) + 1 = fuel + 1 + n + 1 by omega, hread _ (by omega) hkey,
    takePairs?_key (hkey.reads _), hvalue _ (by omega), Option.bind_some, hr, Option.bind_some]
  exact congrArg (Option.map _) (takePairs?_spaces hbehind _)

/-- A pair with a string of plain characters. -/
theorem LeadsPairs.entry {pairs written spaces value behind : List Char} {key : List String}
    {entries r : Entries} (h : LeadsPairs pairs entries) (hkey : IsKey written key)
    (hspaces : ∀ c ∈ spaces, isSpace c) (hvalue : ∀ c ∈ value, isPlain c)
    (hbehind : ∀ c ∈ behind, isSpace c)
    (hr : entries.insert? (.string (String.ofList value)) key = some r) :
    LeadsPairs (pairs ++ textLine written spaces value (',' :: behind)) r := by
  have htext : textLine written spaces value (',' :: behind) =
      written ++ '=' :: (spaces ++ '"' :: (value ++ ['"']) ++ ',' :: behind) := by simp [textLine]
  rw [htext]
  refine h.pair hkey (fun {fuel} s hfuel => ?_) hbehind hr
  simp only [List.length_append, List.length_cons] at hfuel
  obtain ⟨fuel, rfl⟩ : ∃ n, fuel = n + 1 := ⟨fuel - 1, by omega⟩
  rw [List.append_assoc, skipSpaces_append hspaces, List.cons_append, skipSpaces_quote,
    List.append_assoc]
  exact takeValue?_plain hvalue (by simp)

/-- A list of one string of plain characters. -/
theorem takeValue?_singleton {fuel depth : Nat} {value rest : List Char}
    (hdepth : depth + 1 < depthLimit) (hvalue : ∀ c ∈ value, isPlain c) :
    takeValue? (fuel + 3) depth ('[' :: '"' :: (value ++ '"' :: ']' :: rest)) =
      some (.array [.string (String.ofList value)], rest) := by
  have hopen (n : Nat) (s : List Char) : skipLines? (n + 1) ('"' :: s) = some ('"' :: s) := rfl
  have hend (n : Nat) (s : List Char) : skipLines? (n + 1) (']' :: s) = some (']' :: s) := rfl
  have hitem : takeValue? (fuel + 1) (depth + 1) ('"' :: (value ++ '"' :: ']' :: rest)) =
      some (.string (String.ofList value), ']' :: rest) := takeValue?_plain hvalue (by simp)
  have hitems : takeItems? (fuel + 2) (depth + 1) ('"' :: (value ++ '"' :: ']' :: rest)) =
      some ([.string (String.ofList value)], rest) := by
    simp only [takeItems?, hitem, hend]
  rw [takeValue?, if_neg (Nat.not_le.mpr hdepth)]
  simp only [hopen]
  exact congrArg (Option.map _) hitems

/-- A pair with a list of one string of plain characters. -/
theorem LeadsPairs.singleton {pairs written spaces value behind : List Char} {key : List String}
    {entries r : Entries} (h : LeadsPairs pairs entries) (hkey : IsKey written key)
    (hspaces : ∀ c ∈ spaces, isSpace c) (hvalue : ∀ c ∈ value, isPlain c)
    (hbehind : ∀ c ∈ behind, isSpace c)
    (hr : entries.insert? (.array [.string (String.ofList value)]) key = some r) :
    LeadsPairs (pairs ++ (written ++
      '=' :: (spaces ++ '[' :: '"' :: (value ++ ['"', ']']) ++ ',' :: behind))) r := by
  refine h.pair hkey (fun {fuel} s hfuel => ?_) hbehind hr
  simp only [List.length_append, List.length_cons] at hfuel
  obtain ⟨fuel, rfl⟩ : ∃ n, fuel = n + 3 := ⟨fuel - 3, by omega⟩
  have hskip (s : List Char) : skipSpaces ('[' :: s) = '[' :: s := rfl
  rw [List.append_assoc, skipSpaces_append hspaces, List.cons_append, hskip, List.cons_append,
    List.append_assoc]
  exact takeValue?_singleton (by decide) hvalue

/-- Strings of plain characters in one pair of a table in braces are both read, with the same rest,
and the tables differ in them only. -/
theorem differ_takeValue?_braces {fuel : Nat} {pairs written spaces value after rest : List Char}
    {k : String} {entries : Entries} {v : Value} (hpairs : LeadsPairs pairs entries)
    (hkey : IsKey written [k]) (hspaces : ∀ c ∈ spaces, isSpace c)
    (hvalue : ∀ c ∈ value, isPlain c) (hafter : after.head? ≠ some '"')
    (hfuel : pairs.length + 3 ≤ fuel)
    (h : takeValue? fuel 0 ('{' :: (pairs ++ textLine written spaces [] after)) = some (v, rest)) :
    ∃ v', takeValue? fuel 0 ('{' :: (pairs ++ textLine written spaces value after)) =
        some (v', rest) ∧ DifferAt "" (String.ofList value) [k] v v' := by
  obtain ⟨n, hn, hread⟩ := hpairs
  obtain ⟨fuel, rfl⟩ : ∃ m, fuel = m + 2 + n + 1 := ⟨fuel - (n + 3), by omega⟩
  have hpair {value : List Char} (hvalue : ∀ c ∈ value, isPlain c) :
      takeValue? (fuel + 2 + n + 1) 0 ('{' :: (pairs ++ textLine written spaces value after)) =
        ((entries.insert? (.string (String.ofList value)) [k]).bind fun entries =>
          afterPair? (fuel + 1) 1 entries after).map fun taken =>
            (.table .inline taken.1, taken.2) := by
    rw [textLine, hread _ (by omega) hkey, takePairs?_key (hkey.reads _),
      skipSpaces_append hspaces, skipSpaces_quote, takeValue?_plain hvalue hafter, Option.bind_some]
  rw [hpair (List.forall_mem_nil _), Option.map_eq_some_iff] at h
  obtain ⟨⟨r, after'⟩, hr, heq⟩ := h
  cases heq
  obtain ⟨inserted, hinserted, hr⟩ := Option.bind_eq_some_iff.mp hr
  obtain ⟨inserted', hinserted', hdiffer⟩ := differ_insert?_string hinserted
  obtain ⟨r', hr', hdiffer'⟩ := differ_afterPair? hdiffer hr
  refine ⟨.table .inline r', ?_, .inline, r, r', rfl, rfl, hdiffer'⟩
  rw [hpair hvalue, hinserted', Option.bind_some, hr', Option.map_some]

/-- A text that ends where a string gives the entry `k` of the table `q` at the root: in a line with
a dotted key or under the header of the table, or in a table in braces. -/
inductive Slot (q k : String) : List Char → Prop
  | line {before written spaces : List Char} {path key : List String} {root : Entries}
      (leads : Leads before path root) (isKey : IsKey written key)
      (blank : ∀ c ∈ spaces, isSpace c)
      (stands : path = [] ∧ key = [q, k] ∨ path = [q] ∧ key = [k])
      (noList : ∀ v, root.find? q = some v → v.isList = false) :
      Slot q k (before ++ (written ++ '=' :: spaces))
  | braces {before written spaces pairs written' spaces' : List Char} {root entries : Entries}
      (leads : Leads before [] root) (isKey : IsKey written [q])
      (blank : ∀ c ∈ spaces, isSpace c) (leadsPairs : LeadsPairs pairs entries)
      (isKey' : IsKey written' [k]) (blank' : ∀ c ∈ spaces', isSpace c) :
      Slot q k (before ++ (written ++ '=' :: (spaces ++
        '{' :: (pairs ++ (written' ++ '=' :: spaces')))))

theorem Slot.head? {q k : String} {before : List Char} (slot : Slot q k before) (s : List Char) :
    (before ++ s).head? ≠ some '\uFEFF' := by
  cases slot with
  | line leads isKey =>
    simp only [List.append_assoc]
    exact leads.head?_key isKey _
  | braces leads isKey =>
    simp only [List.append_assoc]
    exact leads.head?_key isKey _

/-- Two documents with different strings of plain characters in one place are both read, and differ
in it only. -/
theorem Slot.parse? {q k : String} {mark before value after : List Char} {document : Entries}
    (slot : Slot q k before) (hmark : mark = [] ∨ mark = ['\uFEFF'])
    (hvalue : ∀ c ∈ value, isPlain c) (hafter : after.head? ≠ some '"')
    (h : parse? (String.ofList (mark ++ (before ++ '"' :: '"' :: after))) = some document) :
    ∃ document', parse? (String.ofList (mark ++ (before ++ '"' :: (value ++ '"' :: after)))) =
        some document' ∧
      DifferBelow q (DifferAt "" (String.ofList value) [k]) document document' := by
  rw [parse?_marked hmark (slot.head? _)] at h ⊢
  cases slot with
  | @line before written spaces path key root leads isKey blank stands noList =>
    simp only [List.append_assoc, List.cons_append] at h ⊢
    refine parse?_differ leads isKey (by simp) (fun {v rest} hv => ?_) h
    rw [skipSpaces_append blank, skipSpaces_quote] at hv ⊢
    cases hv.symm.trans (takeValue?_plain (List.forall_mem_nil _) hafter)
    refine ⟨_, takeValue?_plain hvalue hafter, fun {r} hr => ?_⟩
    obtain ⟨rfl, rfl⟩ | ⟨rfl, rfl⟩ := stands
    · exact differ_insert?_two hr
    · exact differ_update?_one noList hr
  | @braces before written spaces pairs written' spaces' root entries leads isKey blank leadsPairs
      isKey' blank' =>
    simp only [List.append_assoc, List.cons_append] at h ⊢
    refine parse?_differ leads isKey (by simp) (fun {v rest} hv => ?_) h
    rw [skipSpaces_append blank, skipSpaces_brace] at hv ⊢
    obtain ⟨v', hv', hdiffer⟩ := differ_takeValue?_braces leadsPairs isKey' blank' hvalue hafter
      (by simp only [List.length_append, List.length_cons]; omega) hv
    exact ⟨v', (take_mono (by simp)).1 hv', differ_insert?_one hdiffer⟩

end DiceBot.Toml
