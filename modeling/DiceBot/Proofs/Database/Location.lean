import DiceBot.Proofs.Database.Disk
import DiceBot.Proofs.Outcome
import DiceBot.Proofs.Text.Trim
import DiceBot.Proofs.Web.Form
import DiceBot.Settings.Validation

/-!
Addresses with blanks around them. The rules for settings look at an address without its blanks, but
a database is opened with them. A database in memory is one either way, and a file is not the same.
-/

namespace DiceBot.Database

theorem dropStarts_nil {start : List Char} (hstart : start ≠ []) (fuel : Nat) :
    dropStarts start fuel [] = [] := by
  cases fuel with
  | zero => rfl
  | succ fuel => cases start <;> simp [dropStarts, Text.dropStart?] at hstart ⊢

/-- More fuel than the text is long changes nothing. -/
theorem dropStarts_eq {start s : List Char} (hstart : start ≠ []) {fuel fuel' : Nat}
    (h : s.length ≤ fuel) (h' : s.length ≤ fuel') :
    dropStarts start fuel s = dropStarts start fuel' s := by
  induction fuel generalizing s fuel' with
  | zero =>
    rw [List.length_eq_zero_iff.mp (Nat.le_zero.mp h), dropStarts_nil hstart, dropStarts_nil hstart]
  | succ fuel ih =>
    cases fuel' with
    | zero =>
      rw [List.length_eq_zero_iff.mp (Nat.le_zero.mp h'), dropStarts_nil hstart,
        dropStarts_nil hstart]
    | succ fuel' =>
      rw [dropStarts, dropStarts]
      cases hs : Text.dropStart? start s with
      | none => rfl
      | some rest =>
        have hlength := congrArg List.length (Text.eq_append_of_dropStart? hs)
        have hpos := List.length_pos_iff.mpr hstart
        rw [List.length_append] at hlength
        exact ih (by omega) (by omega)

/-- What starts with no character of the start is not dropped. -/
theorem dropStarts_append {start t : List Char} (ht : ∀ c ∈ t.head?, c ∉ start) (fuel : Nat)
    (s : List Char) : dropStarts start fuel (s ++ t) = dropStarts start fuel s ++ t := by
  induction fuel generalizing s with
  | zero => rfl
  | succ fuel ih =>
    rw [dropStarts, dropStarts, Text.dropStart?_append_right ht]
    cases Text.dropStart? start s with
    | none => rfl
    | some rest => exact ih rest

/-- What is dropped is made of the characters of the start. -/
theorem exists_starts (start : List Char) (fuel : Nat) (s : List Char) :
    ∃ starts, s = starts ++ dropStarts start fuel s ∧ ∀ c ∈ starts, c ∈ start := by
  induction fuel generalizing s with
  | zero => exact ⟨[], rfl, fun _ hc => absurd hc List.not_mem_nil⟩
  | succ fuel ih =>
    rw [dropStarts]
    cases hs : Text.dropStart? start s with
    | none => exact ⟨[], rfl, fun _ hc => absurd hc List.not_mem_nil⟩
    | some rest =>
      obtain ⟨starts, hrest, hstarts⟩ := ih rest
      refine ⟨start ++ starts, ?_, ?_⟩
      · rw [List.append_assoc, ← hrest]
        exact Text.eq_append_of_dropStart? hs
      · intro c hc
        exact (List.mem_append.mp hc).elim id (hstarts c)

theorem mem_scheme {c : Char} (h : c ∈ "sqlite:".toList) : c ∈ "sqlite://".toList := by
  have hall : ∀ c ∈ "sqlite:".toList, c ∈ "sqlite://".toList := by simp
  exact hall c h

theorem withoutScheme_append {t : List Char} (ht : ∀ c ∈ t.head?, c ∉ "sqlite://".toList)
    (s : List Char) : withoutScheme (s ++ t) = withoutScheme s ++ t := by
  have ht' : ∀ c ∈ t.head?, c ∉ "sqlite:".toList := fun c hc hm => ht c hc (mem_scheme hm)
  have hlength : s.length ≤ (s ++ t).length := by simp
  unfold withoutScheme
  rw [dropStarts_append ht, dropStarts_append ht',
    dropStarts_eq (by decide) hlength (Nat.le_refl _)]
  exact congrArg (· ++ t) (dropStarts_eq (by decide) (by simp) (Nat.le_refl _))

theorem exists_scheme (s : List Char) :
    ∃ scheme, s = scheme ++ withoutScheme s ∧ ∀ c ∈ scheme, c ∈ "sqlite://".toList := by
  obtain ⟨long, hlong, hlongMem⟩ := exists_starts "sqlite://".toList s.length s
  obtain ⟨short, hshort, hshortMem⟩ := exists_starts "sqlite:".toList
    (dropStarts "sqlite://".toList s.length s).length (dropStarts "sqlite://".toList s.length s)
  refine ⟨long ++ short, ?_, ?_⟩
  · rw [List.append_assoc]
    exact hlong.trans (congrArg (long ++ ·) hshort)
  · intro c hc
    exact (List.mem_append.mp hc).elim (hlongMem c) fun h => mem_scheme (hshortMem c h)

theorem not_mem_scheme_of_isBlank {c : Char} (h : Text.isBlank c = true) :
    c ∉ "sqlite://".toList := by
  have hall : ∀ c ∈ "sqlite://".toList, Text.isBlank c = false := by simp [Text.isBlank]
  intro hm
  rw [hall c hm] at h
  cases h

/-- What stands around the trimmed address in one that is not, without the schemes. A scheme behind a
blank is dropped from the trimmed address only. -/
structure Padding (left right : List Char) : Prop where
  noQuery : '?' ∉ left
  noPercent : '%' ∉ left
  blank : ∀ c ∈ right, Text.isBlank c = true
  ends : (∃ c ∈ left.head?, Text.isBlank c = true) ∨ right ≠ []

theorem exists_padding {url : List Char} (h : Text.trim url ≠ url) : ∃ left right,
    Padding left right ∧ withoutScheme url = left ++ withoutScheme (Text.trim url) ++ right := by
  obtain ⟨left, right, hleft, hright, hurl⟩ := Text.exists_padding url
  cases left with
  | nil =>
    -- the scheme is dropped from both, and the blanks stay behind the name
    refine ⟨[], right, ⟨List.not_mem_nil, List.not_mem_nil, hright, .inr ?_⟩, ?_⟩
    · rintro rfl
      rw [List.nil_append, List.append_nil] at hurl
      exact h hurl.symm
    · refine (congrArg withoutScheme hurl).trans (withoutScheme_append ?_ _)
      exact fun c hc => not_mem_scheme_of_isBlank (hright c (List.mem_of_mem_head? hc))
  | cons c left =>
    -- behind a blank the scheme stays, as a part of the name
    obtain ⟨scheme, hscheme, hmem⟩ := exists_scheme (Text.trim url)
    have hc : Text.isBlank c = true := hleft c List.mem_cons_self
    have hsame : withoutScheme url = url := by
      rw [hurl]
      refine withoutScheme_append (t := c :: left ++ Text.trim url ++ right) ?_ []
      rintro _ ⟨⟩
      exact not_mem_scheme_of_isBlank hc
    have hplain : ∀ d, Text.isBlank d = false → d ∉ "sqlite://".toList →
        d ∉ c :: left ++ scheme := by
      intro d hd hd' hm
      rcases List.mem_append.mp hm with hm | hm
      · rw [hleft d hm] at hd
        cases hd
      · exact hd' (hmem d hm)
    refine ⟨c :: left ++ scheme, right, ⟨hplain '?' (by decide) (by decide),
      hplain '%' (by decide) (by decide), hright, .inl ⟨c, rfl, hc⟩⟩, ?_⟩
    rw [hsame, List.append_assoc (c :: left), ← hscheme]
    exact hurl

namespace Padding

variable {left right : List Char}

theorem trim_ne (h : Padding left right) (s : List Char) :
    Text.trim (left ++ s ++ right) ≠ left ++ s ++ right := by
  intro htrim
  obtain ⟨hhead, hlast⟩ := Text.isBlank_ends_of_trim htrim
  rcases h.ends with ⟨c, hc, hblank⟩ | hne
  · have hb := hhead c (by simp [List.head?_append, Option.mem_def.mp hc])
    rw [hblank] at hb
    cases hb
  · have hmem : right.getLast hne ∈ (left ++ s ++ right).getLast? := by
      simp [List.getLast?_append, List.getLast?_eq_some_getLast hne]
    have hb := hlast _ hmem
    rw [h.blank _ (List.getLast_mem hne)] at hb
    cases hb

theorem append_ne (h : Padding left right) (s : List Char) : left ++ s ++ right ≠ s := by
  intro he
  have hlength := congrArg List.length he
  simp only [List.length_append] at hlength
  rcases h.ends with ⟨c, hc, -⟩ | hne
  · have hpos := List.length_pos_of_mem (List.mem_of_mem_head? hc)
    omega
  · have hpos := List.length_pos_iff.mpr hne
    omega

end Padding

/-- The name of the file in an address, and the parameters behind it. -/
def parts (address : List Char) : List Char × List Char :=
  (Text.splitFirst '?' address).getD (address, [])

/-- The name is between the blanks, unless these are behind parameters. -/
theorem parts_padded {left right : List Char} (h : Padding left right) (s : List Char) :
    parts (left ++ s ++ right) = (left ++ (parts s).1 ++ right, (parts s).2) ∨
      right ≠ [] ∧ (parts (left ++ s ++ right)).2 = (parts s).2 ++ right := by
  cases hs : Text.splitFirst '?' s with
  | none =>
    have hright : '?' ∉ right := fun hm => absurd (h.blank '?' hm) (by decide)
    have hnone : Text.splitFirst '?' (left ++ s ++ right) = none := by
      rw [Text.splitFirst_eq_none_iff]
      simp [h.noQuery, Text.splitFirst_eq_none_iff.mp hs, hright]
    left
    rw [parts, parts, hs, hnone]
    rfl
  | some cut =>
    obtain ⟨name, parameters⟩ := cut
    obtain ⟨rfl, hname⟩ := Text.splitFirst_eq_some_iff.mp hs
    have hsome : Text.splitFirst '?' (left ++ (name ++ '?' :: parameters) ++ right) =
        some (left ++ name, parameters ++ right) :=
      Text.splitFirst_eq_some_iff.mpr ⟨by simp, by simp [h.noQuery, hname]⟩
    rw [parts, parts, hs, hsome]
    cases right with
    | nil => exact .inl (by simp)
    | cons c right => exact .inr ⟨List.cons_ne_nil c right, rfl⟩

/-- An empty name is kept in memory. -/
def Target.ofName (name : String) : Target :=
  if name = ":memory:" ∨ name = "" then .memory else .file name

theorem Target.ofName_of_strip_ne {name : String} (h : Text.strip name ≠ name) :
    ofName name = .file name := by
  refine if_neg ?_
  rintro (rfl | rfl) <;> exact h (by decide)

theorem Target.eq_of_ofName {name name' : String} (h : ofName name = .file name') :
    name = name' := by
  unfold ofName at h
  split at h
  · cases h
  · exact Target.file.inj h

namespace Location

theorem ofUrl_eq (url : String) : ofUrl url =
    match Bytes.ofUtf8? (Web.percentDecode (parts (withoutScheme url.toList)).1) with
    | none => .error ⟨"the name of the file is no text"⟩
    | some name => (Web.Form.decodePairs (parts (withoutScheme url.toList)).2).foldlM withParameter
        ⟨Target.ofName name, false, false⟩ := rfl

theorem ofUrl_eq_ok_iff {url : String} {l : Location} :
    ofUrl url = .ok l ↔ ∃ name,
      Bytes.ofUtf8? (Web.percentDecode (parts (withoutScheme url.toList)).1) = some name ∧
      (Web.Form.decodePairs (parts (withoutScheme url.toList)).2).foldlM withParameter
        ⟨Target.ofName name, false, false⟩ = .ok l := by
  rw [ofUrl_eq]
  cases Bytes.ofUtf8? (Web.percentDecode (parts (withoutScheme url.toList)).1) <;> simp

/-- What a parameter does to a location does not depend on where the database is. -/
theorem withParameter_withTarget {l l' : Location} {p : String × String}
    (h : l.withParameter p = .ok l') (t : Target) : { l with target := t }.withParameter p =
      .ok { l' with target := if p = ("mode", "memory") then .memory else t } := by
  revert h
  fun_cases withParameter l p with
  | case11 name hname =>
    rintro ⟨⟩
    rw [withParameter, if_pos hname]
    rfl
  | case12 | case13 => exact fun h => nomatch h
  | _ =>
    rintro ⟨⟩
    rfl

theorem foldlM_withTarget {parameters : List (String × String)} {l l' : Location}
    (h : parameters.foldlM withParameter l = .ok l') (t : Target) :
    parameters.foldlM withParameter { l with target := t } =
      .ok { l' with target := if ("mode", "memory") ∈ parameters then .memory else t } := by
  induction parameters generalizing l t with
  | nil =>
    cases h
    rfl
  | cons p parameters ih =>
    rw [List.foldlM_cons] at h ⊢
    obtain ⟨next, hp, hrest⟩ := bind_eq_ok_iff.mp h
    refine bind_eq_ok_iff.mpr ⟨_, withParameter_withTarget hp t, ?_⟩
    have htarget : (if ("mode", "memory") ∈ p :: parameters then Target.memory else t) =
        if ("mode", "memory") ∈ parameters then .memory
        else if p = ("mode", "memory") then .memory else t := by
      by_cases hp : p = ("mode", "memory")
      · simp [hp]
      · simp [hp, Ne.symm hp]
    rw [htarget]
    exact ih hrest _

/-- Blanks are no part of a parameter. -/
theorem isBlank_of_withParameter {l l' : Location} {p : String × String}
    (h : l.withParameter p = .ok l') :
    (∀ c ∈ p.1.toList, Text.isBlank c = false) ∧ ∀ c ∈ p.2.toList, Text.isBlank c = false := by
  revert h
  fun_cases withParameter l p with
  | case11 name hname =>
    have hvfs : ∀ c ∈ "vfs".toList, Text.isBlank c = false := by simp [Text.isBlank]
    have hall : ∀ name ∈ fileSystems, ∀ c ∈ name.toList, Text.isBlank c = false := by
      simp [fileSystems, Text.isBlank]
    exact fun _ => ⟨hvfs, hall name (by simpa using hname)⟩
  | case12 | case13 => exact fun h => nomatch h
  | _ => exact fun _ => by simp [Text.isBlank]

theorem exists_withParameter {parameters : List (String × String)} {l l' : Location}
    (h : parameters.foldlM withParameter l = .ok l') {p : String × String} (hp : p ∈ parameters) :
    ∃ before after, withParameter before p = .ok after := by
  induction parameters generalizing l with
  | nil => cases hp
  | cons first parameters ih =>
    rw [List.foldlM_cons] at h
    obtain ⟨next, hfirst, hrest⟩ := bind_eq_ok_iff.mp h
    rcases List.mem_cons.mp hp with rfl | hp
    · exact ⟨l, next, hfirst⟩
    · exact ih hrest hp

/-- Parameters with blanks behind them are not accepted. -/
theorem foldlM_append_blanks (parameters : List Char) {blanks : List Char} (hne : blanks ≠ [])
    (hb : ∀ c ∈ blanks, Text.isBlank c = true) (l l' : Location) :
    (Web.Form.decodePairs (parameters ++ blanks)).foldlM withParameter l ≠ .ok l' := by
  intro h
  have hamp : '&' ∉ blanks := fun hm => absurd (hb '&' hm) (by decide)
  obtain ⟨piece, hpiece⟩ := Web.Form.exists_mem_decodePairs_append parameters hne hamp
  obtain ⟨before, after, hp⟩ := exists_withParameter h hpiece
  obtain ⟨hname, hvalue⟩ := isBlank_of_withParameter hp
  have hmem (s : String) : blanks.head hne ∈ (s ++ String.ofList blanks).toList := by
    simp [List.head_mem]
  have hblank := hb _ (List.head_mem hne)
  obtain ⟨s, hs | hs⟩ := Web.Form.decodePair_append_blanks piece hb
  · rw [hname _ (hs ▸ hmem s)] at hblank
    cases hblank
  · rw [hvalue _ (hs ▸ hmem s)] at hblank
    cases hblank

/-- The blanks around an address are part of the name of its file. -/
theorem exists_name_of_ofUrl {url : String} {l : Location} (hurl : Text.strip url ≠ url)
    (h : ofUrl url = .ok l) : ∃ (name file : String) (parameters : List (String × String)),
      name ≠ file ∧ Text.strip file ≠ file ∧
      parameters.foldlM withParameter ⟨.file file, false, false⟩ = .ok l ∧
      ∀ l', ofUrl (Text.strip url) = .ok l' ↔
        parameters.foldlM withParameter ⟨Target.ofName name, false, false⟩ = .ok l' := by
  have htrim : Text.trim url.toList ≠ url.toList := by
    intro he
    exact hurl (String.toList_injective ((Text.toList_strip url).trans he))
  obtain ⟨left, right, hpad, haddress⟩ := exists_padding htrim
  obtain ⟨file, hfile, hfold⟩ := ofUrl_eq_ok_iff.mp h
  rw [haddress] at hfile hfold
  rcases parts_padded hpad (withoutScheme (Text.trim url.toList)) with hparts | ⟨hne, hparts⟩
  · rw [hparts] at hfile hfold
    dsimp only at hfile hfold
    rw [Web.percentDecode_between hpad.noPercent hpad.blank, Bytes.ofUtf8?_between] at hfile
    obtain ⟨name, hname, hbetween⟩ := Option.map_eq_some_iff.mp hfile
    have htext : left ++ name.toList ++ right = file.toList := by simp [← hbetween]
    have hstrip : Text.strip file ≠ file := by
      intro he
      have htrimFile := congrArg String.toList he
      rw [Text.toList_strip, ← htext] at htrimFile
      exact hpad.trim_ne name.toList htrimFile
    rw [Target.ofName_of_strip_ne hstrip] at hfold
    refine ⟨name, file, _, fun he => hpad.append_ne name.toList (he ▸ htext), hstrip, hfold, ?_⟩
    intro l'
    simp [ofUrl_eq_ok_iff, hname]
  · rw [hparts] at hfold
    exact absurd hfold (foldlM_append_blanks _ hne hpad.blank _ _)

/-- An address that is accepted with blanks around it is accepted without them. A database that is
in memory with them stays there; one that is in a file has blanks in its name, and is then in
another file or in memory. -/
theorem ofUrl_strip {url : String} {l : Location} (hurl : Text.strip url ≠ url)
    (h : ofUrl url = .ok l) : ∃ t, ofUrl (Text.strip url) = .ok { l with target := t } ∧
      (l.target = .memory ∧ t = .memory ∨
        ∃ file, l.target = .file file ∧ Text.strip file ≠ file ∧ t ≠ .file file) := by
  obtain ⟨name, file, parameters, hne, hstrip, hfold, hiff⟩ := exists_name_of_ofUrl hurl h
  have hl := foldlM_withTarget hfold (.file file)
  rw [hfold, Except.ok.injEq] at hl
  have htarget := congrArg target hl
  refine ⟨_, (hiff _).mpr (foldlM_withTarget hfold (Target.ofName name)), ?_⟩
  by_cases hm : ("mode", "memory") ∈ parameters
  · rw [if_pos hm]
    exact .inl ⟨htarget.trans (if_pos hm), rfl⟩
  · rw [if_neg hm]
    exact .inr ⟨file, htarget.trans (if_neg hm), hstrip, fun he => hne (Target.eq_of_ofName he)⟩

end Location

namespace Disk

/-- Where the database is that an address opens. -/
def opened? (d : Disk) (url : String) : Option Target :=
  (d.connect url).toOption.map fun (l, _) => l.target

variable {d : Disk} {url : String}

theorem opened?_eq_some_iff {t : Target} : d.opened? url = some t ↔
    ∃ l s, Location.ofUrl url = .ok l ∧ d.openAt l = .ok s ∧ l.target = t := by
  rw [opened?]
  cases h : d.connect url with
  | error e =>
    constructor
    · intro hnone
      cases hnone
    · rintro ⟨l, s, hl, hs, -⟩
      cases h.symm.trans (connect_eq_ok_iff.mpr ⟨hl, hs⟩)
  | ok opened =>
    obtain ⟨l, s⟩ := opened
    obtain ⟨hl, hs⟩ := connect_eq_ok_iff.mp h
    constructor
    · intro ht
      exact ⟨l, s, hl, hs, Option.some.inj ht⟩
    · rintro ⟨l', s', hl', -, rfl⟩
      cases hl.symm.trans hl'
      rfl

theorem opened?_strip_of_memory (h : d.opened? url = some .memory) :
    d.opened? (Text.strip url) = some .memory := by
  by_cases hurl : Text.strip url = url
  · rwa [hurl]
  · obtain ⟨l, -, hl, -, ht⟩ := opened?_eq_some_iff.mp h
    obtain ⟨t, hstrip, ⟨-, rfl⟩ | ⟨file, hfile, -⟩⟩ := Location.ofUrl_strip hurl hl
    · exact opened?_eq_some_iff.mpr ⟨_, .new, hstrip, rfl, rfl⟩
    · cases ht.symm.trans hfile

theorem opened?_of_file {file : String} (hurl : Text.strip url ≠ url)
    (h : d.opened? url = some (.file file)) :
    Text.strip file ≠ file ∧ d.opened? (Text.strip url) ≠ some (.file file) := by
  obtain ⟨l, -, hl, -, ht⟩ := opened?_eq_some_iff.mp h
  obtain ⟨t, hstrip, ⟨hmemory, -⟩ | ⟨file', hfile, hblanks, hne⟩⟩ := Location.ofUrl_strip hurl hl
  · cases ht.symm.trans hmemory
  · obtain rfl : file' = file := Target.file.inj (hfile.symm.trans ht)
    refine ⟨hblanks, ?_⟩
    intro h'
    obtain ⟨l', -, hl', -, ht'⟩ := opened?_eq_some_iff.mp h'
    cases hstrip.symm.trans hl'
    exact hne ht'

/-- The rules for settings look at an address without the blanks around it. What the address opens
with them is the same only if it is in memory or nothing is opened, and else a file with blanks in
its name is opened. -/
theorem opened?_strip (d : Disk) (url : String) :
    Settings.isDatabaseUrl (Text.strip url) = Settings.isDatabaseUrl url ∧
    (d.opened? url = d.opened? (Text.strip url) ↔ Text.strip url = url ∨
      d.opened? url = some .memory ∨ d.opened? url = none ∧ d.opened? (Text.strip url) = none) ∧
    ∀ file, Text.strip url ≠ url → d.opened? url = some (.file file) →
      Text.strip file ≠ file := by
  refine ⟨?_, ⟨?_, ?_⟩, fun file hurl h => (opened?_of_file hurl h).1⟩
  · have htwice : Text.strip (Text.strip url) = Text.strip url := by
      apply String.toList_injective
      rw [Text.toList_strip, Text.toList_strip, Text.trim_trim]
    rw [Settings.isDatabaseUrl, htwice]
    rfl
  · intro h
    by_cases hurl : Text.strip url = url
    · exact .inl hurl
    · cases hopened : d.opened? url with
      | none => exact .inr (.inr ⟨rfl, h.symm.trans hopened⟩)
      | some t =>
        cases t with
        | memory => exact .inr (.inl rfl)
        | file file => exact absurd (h.symm.trans hopened) (opened?_of_file hurl hopened).2
  · rintro (hurl | h | ⟨h, h'⟩)
    · rw [hurl]
    · rw [h, opened?_strip_of_memory h]
    · rw [h, h']

-- Behind a blank the scheme is a part of the name.
example : Disk.opened? ⟨some, []⟩ " sqlite://x.db" = some (.file " sqlite://x.db") := by
  decide +kernel

/-- With a blank behind it, the address of a database in memory opens a file. -/
theorem opened?_blank : ¬∀ (d : Disk) (url : String), Settings.isDatabaseUrl url = true →
    d.opened? url = d.opened? (Text.strip url) := by
  intro h
  have hsame := h ⟨some, []⟩ ":memory: " (by decide)
  revert hsame
  decide +kernel

end Disk
end DiceBot.Database
