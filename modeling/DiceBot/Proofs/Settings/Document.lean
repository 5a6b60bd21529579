import DiceBot.Proofs.Bytes.Utf8
import DiceBot.Proofs.Settings.Table
import DiceBot.Proofs.Toml.Difference

/-!
The settings that a document gives: every row of the table is read from the place where it stands,
and from nowhere else.
-/

namespace DiceBot

/-- A directory with one file. -/
def Files.only (path text : String) : Files where
  entry? path' := if path' = path then some (.file (Bytes.utf8 text)) else none

theorem Files.text?_only (path text : String) : (Files.only path text).text? path = some text := by
  simp [Files.text?, Files.only, Bytes.ofUtf8?_utf8]

theorem sectionNames_app : sectionNames "app" = Layer.appSettings := rfl

theorem sectionNames_database : sectionNames "database" = Layer.databaseSettings := rfl

theorem sectionNames_slack : sectionNames "slack" = Layer.slackSettings := rfl

theorem sectionNames_server : sectionNames "server" = Layer.serverSettings := rfl

theorem sectionNames_logging : sectionNames "logging" = Layer.loggingSettings := rfl

/-- What a document has for a setting, if its section can be read. -/
def Setting.entry? (f : Setting) (document : Toml.Entries) : Option (Option Toml.Value) :=
  (Layer.section? (sectionNames f.part) (document.find? f.part)).map fun values => values f.name

/-- What stands in the place of a setting: in a table what it has under the name, in an array, which
has to be long enough, the item with the number of the setting. Without a section there is nothing,
and a date is a section without settings. -/
inductive Setting.Place (f : Setting) (document : Toml.Entries) : Option Toml.Value → Prop
  | noSection (absent : document.find? f.part = none) : f.Place document none
  | date (section_eq : document.find? f.part = some .date) : f.Place document none
  | table {origin : Toml.Origin} {entries : Toml.Entries}
    (section_eq : document.find? f.part = some (.table origin entries)) :
    f.Place document (entries.find? f.name)
  | inOrder {items : List Toml.Value} (section_eq : document.find? f.part = some (.array items) ∨
      document.find? f.part = some (.tables items))
    (enough : (sectionNames f.part).length ≤ items.length) :
    f.Place document items[(sectionNames f.part).idxOf f.name]?

theorem Setting.entry?_eq_some_iff {f : Setting} {document : Toml.Entries}
    {entry : Option Toml.Value} : f.entry? document = some entry ↔ f.Place document entry := by
  constructor
  · intro h
    obtain ⟨values, hsection, rfl⟩ := Option.map_eq_some_iff.mp h
    unfold Layer.section? at hsection
    split at hsection
    case h_1 hpart =>
      cases hsection
      exact .noSection hpart
    case h_2 hpart =>
      cases hsection
      exact .date hpart
    case h_3 hpart =>
      cases hsection
      exact .table hpart
    case h_4 hpart =>
      obtain ⟨hlength, hvalues⟩ := Option.ite_none_left_eq_some.mp hsection
      cases hvalues
      exact .inOrder (.inl hpart) (Nat.le_of_not_lt hlength)
    case h_5 hpart =>
      obtain ⟨hlength, hvalues⟩ := Option.ite_none_left_eq_some.mp hsection
      cases hvalues
      exact .inOrder (.inr hpart) (Nat.le_of_not_lt hlength)
    case h_6 => cases hsection
  · intro h
    unfold entry?
    cases h with
    | noSection absent => rw [absent]; rfl
    | date section_eq => rw [section_eq]; rfl
    | table section_eq => rw [section_eq]; rfl
    | inOrder section_eq enough =>
      rcases section_eq with hpart | hpart <;>
        rw [hpart, Layer.section?, if_neg (Nat.not_lt.mpr enough), Option.map_some]

/-- What a document gives for a setting: nothing when nothing stands in its place, else what is
meant there. -/
inductive Setting.Given (f : Setting) (document : Toml.Entries) : Option f.Value → Prop
  | nothing (place : f.Place document none) : f.Given document none
  | value {v : Toml.Value} {a : f.Value} (place : f.Place document (some v))
    (stands : f.Stands v a) : f.Given document (some a)

/-- What a document gives for a setting, if it can be read. -/
def Setting.given? (f : Setting) (document : Toml.Entries) : Option (Option f.Value) :=
  (f.entry? document).bind (Layer.optional? f.ofFile?)

theorem Setting.given?_eq_some_iff {f : Setting} {document : Toml.Entries}
    {given : Option f.Value} : f.given? document = some given ↔ f.Given document given := by
  simp only [given?, Option.bind_eq_some_iff, entry?_eq_some_iff]
  constructor
  · rintro ⟨_ | v, hplace, hread⟩
    · cases hread
      exact .nothing hplace
    · obtain ⟨a, ha, rfl⟩ := Option.map_eq_some_iff.mp hread
      exact .value hplace (f.ofFile?_iff.mp ha)
  · intro h
    cases h with
    | nothing place => exact ⟨none, place, rfl⟩
    | value place stands =>
      exact ⟨_, place, Option.map_eq_some_iff.mpr ⟨_, f.ofFile?_iff.mpr stands, rfl⟩⟩

theorem Setting.given?_eq_none_iff {f : Setting} {document : Toml.Entries} :
    f.given? document = none ↔ ∀ given, ¬ f.Given document given := by
  simp only [← given?_eq_some_iff, Option.eq_none_iff_forall_ne_some]

namespace Layer

theorem tokenKey_iff {v : Option Toml.Value} {key : Option String} :
    optional? (fun v => (text? v).map some) v = some (key.map some) ↔
      optional? text? v = some key := by
  cases v with
  | none => cases key <;> simp [optional?]
  | some v => cases h : text? v <;> cases key <;> simp [optional?, h]

theorem tokenKey_isSome (v : Option Toml.Value) :
    (optional? (fun v => (text? v).map some) v).isSome = (optional? text? v).isSome := by
  cases v <;> simp [optional?]

theorem read_next {α : Type} {o : Option α} {read : α → Option Layer} {l : Layer}
    (h : (o >>= read) = some l) : ∃ a, o = some a ∧ read a = some l :=
  Option.bind_eq_some_iff.mp h

theorem read_of_next {α : Type} {o : Option α} {read : α → Option Layer} {a : α} {l : Layer}
    (ha : o = some a) (h : read a = some l) : (o >>= read) = some l :=
  Option.bind_eq_some_iff.mpr ⟨a, ha, h⟩

theorem exists_read_of_next {α : Type} {o : Option α} {read : α → Option Layer} (ho : o.isSome)
    (h : ∀ a, ∃ l, read a = some l) : ∃ l, (o >>= read) = some l := by
  obtain ⟨a, ha⟩ := Option.isSome_iff_exists.mp ho
  obtain ⟨l, hl⟩ := h a
  exact ⟨l, read_of_next ha hl⟩

/-- A document is read as a layer row by row: the layer has what the rows give, and there is one if
every row gives something. -/
theorem ofDocument?_rows (document : Toml.Entries) :
    (∀ l, ofDocument? document = some l ↔ ∀ f ∈ settings, f.given? document = some (f.inLayer l)) ∧
    ((∀ f ∈ settings, (f.given? document).isSome) → ∃ l, ofDocument? document = some l) := by
  simp only [settings, List.forall_mem_cons, Setting.given?, Setting.entry?, Setting.text,
    Setting.texts, Setting.number, Setting.tokenKey, Setting.logFormat, sectionNames_app,
    sectionNames_database, sectionNames_slack, sectionNames_server, sectionNames_logging]
  unfold ofDocument?
  cases section? appSettings (document.find? "app") with
  | none => simp
  | some app =>
  cases section? databaseSettings (document.find? "database") with
  | none => simp
  | some database =>
  cases section? slackSettings (document.find? "slack") with
  | none => simp
  | some slack =>
  cases section? serverSettings (document.find? "server") with
  | none => simp
  | some server =>
  cases section? loggingSettings (document.find? "logging") with
  | none => simp
  | some logging =>
  simp only [Option.bind_eq_bind, Option.map_some, Option.bind_some, tokenKey_iff, tokenKey_isSome]
  unfold ofSections?
  refine ⟨fun l => ⟨fun h => ?_, fun h => ?_⟩, fun h => ?_⟩
  -- one setting is read after the other, and each step leaves the reading of the further ones
  · repeat with_reducible obtain ⟨_, _, h⟩ := read_next h
    cases h
    simp only [List.not_mem_nil, IsEmpty.forall_iff, implies_true, and_self, *]
  · repeat
      refine read_of_next h.1 ?_
      replace h := h.2
    rfl
  · repeat
      refine exists_read_of_next h.1 fun _ => ?_
      replace h := h.2
    exact ⟨_, rfl⟩

/-- A document is read as a layer if every setting can be read on its own, and it then gives each
setting what stands in its own place. -/
theorem ofDocument?_eq_some_iff {document : Toml.Entries} {l : Layer} :
    ofDocument? document = some l ↔ ∀ f ∈ settings, f.given? document = some (f.inLayer l) :=
  (ofDocument?_rows document).1 l

/-- When every setting can be read on its own, the document gives a layer. -/
theorem exists_of_given? {document : Toml.Entries}
    (h : ∀ f ∈ settings, (f.given? document).isSome) :
    ∃ l : Layer, ∀ f ∈ settings, f.given? document = some (f.inLayer l) := by
  obtain ⟨l, hl⟩ := (ofDocument?_rows document).2 h
  exact ⟨l, ofDocument?_eq_some_iff.mp hl⟩

theorem ofDocument?_eq_none_iff {document : Toml.Entries} :
    ofDocument? document = none ↔ ∃ f ∈ settings, f.given? document = none := by
  constructor
  · intro hnone
    by_contra hall
    have hsome : ∀ f ∈ settings, (f.given? document).isSome := fun f hf => by
      cases hgiven : f.given? document with
      | none => exact absurd ⟨f, hf, hgiven⟩ hall
      | some _ => rfl
    obtain ⟨l, hl⟩ := exists_of_given? hsome
    cases hnone.symm.trans (ofDocument?_eq_some_iff.mpr hl)
  · rintro ⟨f, hf, hgiven⟩
    cases hl : ofDocument? document with
    | none => rfl
    | some l => cases hgiven.symm.trans (ofDocument?_eq_some_iff.mp hl f hf)

end Layer

theorem Setting.entry?_of_table {f : Setting} {document entries : Toml.Entries}
    {origin : Toml.Origin} (h : document.find? f.part = some (.table origin entries)) :
    f.entry? document = some (entries.find? f.name) :=
  Setting.entry?_eq_some_iff.mpr (.table h)

/-- A document whose sections are no arrays has a value for a setting exactly where it contains the
key. -/
theorem Setting.entry?_isSome {f : Setting} {document : Toml.Entries}
    {entry : Option Toml.Value} (h : f.entry? document = some entry)
    (hlist : ∀ v, document.find? f.part = some v → v.isList = false) :
    document.contains [f.part, f.name] = entry.isSome := by
  cases Setting.entry?_eq_some_iff.mp h with
  | noSection absent => simp [Toml.Entries.contains, absent]
  | date section_eq => simp [Toml.Entries.contains, section_eq]
  | @table origin entries section_eq =>
    cases hname : Toml.Entries.find? f.name entries with
    | none => simp [Toml.Entries.contains, section_eq, hname]
    | some v => cases v <;> simp [Toml.Entries.contains, section_eq, hname]
  | inOrder section_eq => rcases section_eq with hpart | hpart <;> cases hlist _ hpart

/-- A document that differs from another one in the text of a setting gives that setting its text,
and gives every other setting the same. -/
theorem Setting.given?_of_differBelow {f : Setting} {text text' : String}
    {document document' : Toml.Entries}
    (h : Toml.Entries.DifferBelow f.part (Toml.DifferAt text text' [f.name]) document document') :
    f.given? document' = (f.ofFile? (.string text')).map some ∧
    ∀ g ∈ settings, g.key ≠ f.key → g.given? document' = g.given? document := by
  obtain ⟨_, _, hfind, hfind', origin, es, es', rfl, rfl, hdiffer⟩ := h.find?
  obtain ⟨_, _, -, hname, -, rfl⟩ := hdiffer.find?
  constructor
  · rw [Setting.given?, Setting.entry?_of_table hfind', hname]
    rfl
  · intro g hg hkey
    by_cases hpart : g.part = f.part
    · have hne : g.name ≠ f.name := fun heq => hkey (by rw [Setting.key, Setting.key, hpart, heq])
      rw [Setting.given?, Setting.given?, Setting.entry?_of_table (hpart ▸ hfind'),
        Setting.entry?_of_table (hpart ▸ hfind), hdiffer.find?_of_ne hne]
    · rw [Setting.given?, Setting.given?, Setting.entry?, Setting.entry?, h.find?_of_ne hpart]

/-- A setting is given exactly when there is a value in its place. -/
theorem Setting.given?_isSome {f : Setting} {document : Toml.Entries} {given : Option f.Value}
    (h : f.given? document = some given) :
    ∃ entry, f.entry? document = some entry ∧ entry.isSome = given.isSome := by
  obtain ⟨entry, hentry, hread⟩ := Option.bind_eq_some_iff.mp h
  refine ⟨entry, hentry, ?_⟩
  cases entry with
  | none =>
    cases hread
    rfl
  | some v =>
    obtain ⟨value, -, rfl⟩ := Option.map_eq_some_iff.mp hread
    rfl

end DiceBot
