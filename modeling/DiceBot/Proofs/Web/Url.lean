import DiceBot.Proofs.Text.Run
import DiceBot.Proofs.Web.Form
import DiceBot.Proofs.Web.Header
import DiceBot.Web.Url

/-!
The characters of written addresses: which of them can stand before the query, in it and behind it,
so that the query of an address is found in its text again.
-/

namespace DiceBot.Web

open Host (percentEncode isControl)

/-- Text that can stand before the query of an address. -/
def Inert (s : List Char) : Prop := ∀ c ∈ s, Printed c ∧ c ≠ '?' ∧ c ≠ '#'

/-- Text that can stand in the query of an address. -/
def Queried (s : List Char) : Prop := ∀ c ∈ s, Printed c ∧ c ≠ '#'

theorem printed_of_isAlphanum {c : Char} (h : c.isAlphanum = true) : Printed c := by
  rw [Text.isAlphanum_iff, Text.isUpper_iff, Text.isLower_iff, Text.isDigit_iff] at h
  left
  omega

theorem printed_ascii : ∀ c ∈ ['-', '.', '_', '*', '+', '%', '=', '&'], Printed c := by
  simp [Printed]

namespace Inert

theorem nil : Inert [] := fun _ h => absurd h List.not_mem_nil

theorem cons {c : Char} {s : List Char} (hc : Printed c ∧ c ≠ '?' ∧ c ≠ '#') (hs : Inert s) :
    Inert (c :: s) := by
  intro d hd
  rcases List.mem_cons.mp hd with rfl | hd
  · exact hc
  · exact hs d hd

theorem append {a b : List Char} (ha : Inert a) (hb : Inert b) : Inert (a ++ b) := by
  intro c hc
  rcases List.mem_append.mp hc with hc | hc
  · exact ha c hc
  · exact hb c hc

theorem intercalate {sep : List Char} {pieces : List (List Char)} (hsep : Inert sep)
    (h : ∀ piece ∈ pieces, Inert piece) : Inert (sep.intercalate pieces) := by
  intro c hc
  rcases Text.mem_intercalate hc with hc | ⟨piece, hp, hc⟩
  · exact hsep c hc
  · exact h piece hp c hc

theorem of_isAlphanum {s : List Char} (h : ∀ c ∈ s, c.isAlphanum = true) : Inert s := by
  intro c hc
  refine ⟨printed_of_isAlphanum (h c hc), ?_, ?_⟩ <;>
  · rintro rfl
    cases h _ hc

theorem toString (n : Nat) : Inert (toString n).toList :=
  of_isAlphanum fun c hc => Text.isAlphanum_iff.mpr (.inr (Text.isRun_toString n c hc))

end Inert

namespace Host

/-- What is not encoded stays, and what is encoded is written with percent signs, letters and
digits. -/
theorem mem_percentEncode {encoded : Char → Bool} {s : List Char} {c : Char}
    (h : c ∈ percentEncode encoded s) :
    (c ∈ s ∧ c.toNat < 0x7f ∧ encoded c = false) ∨ c = '%' ∨ c.isAlphanum = true := by
  obtain ⟨d, hd, hc⟩ := List.mem_flatMap.mp h
  split at hc
  · obtain ⟨b, -, hc⟩ := List.mem_flatMap.mp hc
    have hb := b.toNat_lt
    rw [percentByte_eq] at hc
    simp only [List.mem_cons, List.not_mem_nil, or_false] at hc
    rcases hc with rfl | rfl | rfl
    · exact .inr (.inl rfl)
    · exact .inr (.inr (toUpper_digitChar_isAlphanum (by omega)))
    · exact .inr (.inr (toUpper_digitChar_isAlphanum (by omega)))
  · next hn =>
    cases List.mem_singleton.mp hc
    simp only [Bool.or_eq_true, decide_eq_true_eq, not_or, Bool.not_eq_true] at hn
    exact .inl ⟨hd, by omega, hn.2⟩

theorem printed_percentEncode {encoded : Char → Bool} (hc : ∀ c, isControl c → encoded c)
    {s : List Char} : ∀ c ∈ percentEncode encoded s, Printed c := by
  intro c h
  rcases mem_percentEncode h with ⟨-, hlt, hn⟩ | rfl | ha
  · have hcontrol : ¬ isControl c := fun he => by simp [hc c he] at hn
    rw [isControl, decide_eq_true_eq] at hcontrol
    left
    omega
  · exact printed_ascii _ (by decide)
  · exact printed_of_isAlphanum ha

theorem not_mem_percentEncode {encoded : Char → Bool} {s : List Char} {mark : Char}
    (h : encoded mark = true ∨ mark ∉ s) (hp : mark ≠ '%') (ha : mark.isAlphanum = false) :
    mark ∉ percentEncode encoded s := by
  intro hm
  rcases mem_percentEncode hm with ⟨hs, -, hn⟩ | he | hm
  · rcases h with h | h
    · cases h.symm.trans hn
    · exact h hs
  · exact hp he
  · cases hm.symm.trans ha

theorem inert_percentEncode {encoded : Char → Bool} (hc : ∀ c, isControl c → encoded c)
    {s : List Char} (hq : encoded '?' = true ∨ '?' ∉ s) (hf : encoded '#' = true ∨ '#' ∉ s) :
    Inert (percentEncode encoded s) := by
  intro c h
  refine ⟨printed_percentEncode hc c h, ?_, ?_⟩
  · rintro rfl
    exact not_mem_percentEncode hq (by decide) (by decide) h
  · rintro rfl
    exact not_mem_percentEncode hf (by decide) (by decide) h

theorem isAlphanum_of_mem_toDigits {n : Nat} {c : Char} (h : c ∈ Nat.toDigits 16 n) :
    c.isAlphanum = true := by
  induction n using Nat.strong_induction_on with
  | _ n ih =>
    rw [Nat.toDigits_eq_if (by decide)] at h
    split at h
    · next hn =>
      rw [List.mem_singleton.mp h]
      exact Bytes.Hex.digitChar_isAlphanum hn
    · rcases List.mem_append.mp h with h | h
      · exact ih (n / 16) (by omega) h
      · rw [List.mem_singleton.mp h]
        exact Bytes.Hex.digitChar_isAlphanum (by omega)

theorem inert_writeV6 (groups : List Nat) : Inert (writeV6 groups) := by
  have hwrite (gs : List Nat) : Inert ([':'].intercalate (gs.map fun g => Nat.toDigits 16 g)) := by
    refine .intercalate (.cons (by unfold Printed; decide) .nil) ?_
    intro piece hp
    obtain ⟨g, -, rfl⟩ := List.mem_map.mp hp
    exact .of_isAlphanum fun c => isAlphanum_of_mem_toDigits
  have hgap : Inert [':', ':'] := by
    simp [Inert, Printed]
  unfold writeV6
  dsimp only
  split
  · exact hwrite groups
  · exact ((hwrite _).append hgap).append (hwrite _)

theorem inert_readV4? {name host : List Char} (h : readV4? name = some host) : Inert host := by
  unfold readV4? at h
  dsimp only at h
  split at h
  · cases h
  · obtain ⟨numbers, -, h⟩ := Option.bind_eq_some_iff.mp h
    obtain ⟨last, -, h⟩ := Option.bind_eq_some_iff.mp h
    split at h
    · cases h
    · cases h
      refine .intercalate (.cons (by unfold Printed; decide) .nil) ?_
      intro piece hp
      obtain ⟨n, -, rfl⟩ := List.mem_map.mp hp
      exact .toString n

theorem inert_of_allowed {name : List Char} (h : ¬ name.any isForbiddenInName) : Inert name := by
  intro c hc
  have hn : ¬ isForbiddenInName c := fun hf => h (List.any_eq_true.mpr ⟨c, hc, hf⟩)
  have hbounds : ¬ c.toNat < 32 ∧ ¬ c.toNat = 127 := by
    simp only [isForbiddenInName, Bool.or_eq_true, decide_eq_true_eq, not_or] at hn
    exact ⟨hn.1.1.2, hn.2⟩
  refine ⟨.inl ⟨by omega, hbounds.2⟩, ?_, ?_⟩ <;>
  · rintro rfl
    exact hn (by decide)

theorem inert_read? {s host : List Char} (h : read? s = some host) : Inert host := by
  unfold read? at h
  split at h
  · split at h
    · obtain ⟨groups, -, rfl⟩ := Option.map_eq_some_iff.mp h
      have hopen : Inert ['['] := by simp [Inert, Printed]
      have hclose : Inert [']'] := by simp [Inert, Printed]
      exact (hopen.append (inert_writeV6 groups)).append hclose
    · cases h
  · obtain ⟨name, -, h⟩ := Option.bind_eq_some_iff.mp h
    dsimp only at h
    split at h
    · cases h
    · next hn =>
      split at h
      · exact inert_readV4? h
      · cases h
        exact inert_of_allowed (not_or.mp hn).2

theorem inert_readOpaque? {s host : List Char} (h : readOpaque? s = some host) : Inert host := by
  unfold readOpaque? at h
  split at h
  · exact inert_read? h
  · split at h
    · cases h
    · next hn =>
      cases h
      refine inert_percentEncode (fun _ => id) (.inr fun hm => hn ?_) (.inr fun hm => hn ?_) <;>
        exact List.any_eq_true.mpr ⟨_, hm, by decide⟩

end Host

namespace Url

open Host (inert_percentEncode)

theorem inUserinfo_control : ∀ c, isControl c → inUserinfo c := by
  intro c h
  simp [inUserinfo, inPath, inFragment, h]

theorem inPath_control : ∀ c, isControl c → inPath c := by
  intro c h
  simp [inPath, inFragment, h]

theorem inFragment_control : ∀ c, isControl c → inFragment c := by
  intro c h
  simp [inFragment, h]

theorem inQuery_control : ∀ c, isControl c → inQuery c := by
  intro c h
  simp [inQuery, h]

theorem inSpecialQuery_control : ∀ c, isControl c → inSpecialQuery c := by
  intro c h
  simp [inSpecialQuery, inQuery_control c h]

theorem inert_takeScheme? {s scheme rest : List Char} (h : takeScheme? s = some (scheme, rest)) :
    Inert scheme := by
  have hmarks : ∀ d ∈ ['+', '-', '.'], Printed d.toLower ∧ d.toLower ≠ '?' ∧ d.toLower ≠ '#' := by
    simp [Printed]
  obtain ⟨⟨name, rest'⟩, -, h⟩ := Option.bind_eq_some_iff.mp h
  dsimp only at h
  split at h
  · next hname =>
    cases h
    simp only [Bool.and_eq_true, List.all_eq_true, Bool.or_eq_true, decide_eq_true_eq] at hname
    intro c hc
    obtain ⟨d, hd, rfl⟩ := List.mem_map.mp hc
    rcases hname.2 d hd with ha | hm
    · exact Inert.of_isAlphanum (s := [d.toLower]) (by simpa using Text.isAlphanum_toLower ha) _
        List.mem_cons_self
    · exact hmarks d hm
  · cases h

theorem cutMark_fst (mark : Char) (s : List Char) :
    mark ∉ (cutMark mark s).1 ∧ (cutMark mark s).1 ⊆ s := by
  unfold cutMark
  cases h : Text.splitFirst mark s with
  | none => exact ⟨Text.splitFirst_eq_none_iff.mp h, List.Subset.refl s⟩
  | some pair =>
    obtain ⟨rfl, hn⟩ := Text.splitFirst_eq_some_iff.mp h
    exact ⟨hn, List.subset_append_left _ _⟩

/-- User, password and host of an address can stand before its query. -/
theorem inert_readAuthority? {scheme s : List Char} {special : Bool} {a : Authority}
    (h : readAuthority? scheme special s = some a) :
    Inert a.username ∧ Inert a.password ∧ Inert a.host := by
  have huser (s : List Char) : Inert (Host.percentEncode inUserinfo s) :=
    inert_percentEncode inUserinfo_control (.inl (by decide)) (.inl (by decide))
  unfold readAuthority? at h
  dsimp only at h
  split at h
  · cases h
  · split at h
    · obtain ⟨host, hhost, h⟩ := Option.bind_eq_some_iff.mp h
      obtain ⟨port, -, h⟩ := Option.bind_eq_some_iff.mp h
      cases h
      exact ⟨huser _, huser _, Host.inert_read? hhost⟩
    · obtain ⟨host, hhost, h⟩ := Option.bind_eq_some_iff.mp h
      obtain ⟨port, -, h⟩ := Option.bind_eq_some_iff.mp h
      cases h
      exact ⟨huser _, huser _, Host.inert_readOpaque? hhost⟩

/-- A path whose text can stand before the query of an address. -/
def InertPath : Path → Prop
  | .segments list => ∀ segment ∈ list, Inert segment
  | .plain text => Inert text

theorem InertPath.write {p : Path} (h : InertPath p) : Inert (Path.write p) := by
  cases p with
  | segments list =>
    intro c hc
    obtain ⟨segment, hs, hc⟩ := List.mem_flatMap.mp hc
    rcases List.mem_cons.mp hc with rfl | hc
    · unfold Printed
      decide
    · exact h segment hs c hc
  | plain text => exact h

theorem inert_drive {segment : List Char} (h : isDrive segment = true) :
    Inert [segment.headD ' ', ':'] := by
  unfold isDrive at h
  split at h
  · next letter mark =>
    have hletter : letter.isAlpha = true := (Bool.and_eq_true_iff.mp h).1
    have halnum : letter.isAlphanum = true := Bool.or_eq_true_iff.mpr (.inl hletter)
    have hname : Inert [letter] := .of_isAlphanum (by simpa using halnum)
    have hcolon : Inert [':'] := by
      simp [Inert, Printed]
    exact hname.append hcolon
  · cases h

theorem inert_addSegment {file last : Bool} {path : List (List Char)} {segment : List Char}
    (h : ∀ s ∈ path, Inert s) : ∀ s ∈ addSegment file path segment last, Inert s := by
  have hempty {list : List (List Char)} (hl : ∀ s ∈ list, Inert s) :
      ∀ s ∈ list ++ [[]], Inert s := by
    intro s hs
    rcases List.mem_append.mp hs with hs | hs
    · exact hl s hs
    · rw [List.mem_singleton.mp hs]
      exact .nil
  unfold addSegment
  split
  · have hshorter : ∀ s ∈ (if file && path.length = 1 && path.head?.any isDrive then path
        else path.dropLast), Inert s := by
      split
      · exact h
      · intro s hs
        exact h s (List.dropLast_subset _ hs)
    dsimp only
    split
    · exact hempty hshorter
    · exact hshorter
  · split
    · split
      · exact hempty h
      · exact h
    · split
      · next hdrive =>
        intro s hs
        rw [List.mem_singleton.mp hs]
        exact inert_drive (Bool.and_eq_true_iff.mp hdrive).2
      · intro s hs
        rcases List.mem_append.mp hs with hs | hs
        · exact h s hs
        · rw [List.mem_singleton.mp hs]
          exact inert_percentEncode inPath_control (.inl (by decide)) (.inl (by decide))

theorem inert_addSegments {file : Bool} {path : List (List Char)} (segments : List (List Char))
    (h : ∀ s ∈ path, Inert s) : ∀ s ∈ addSegments file path segments, Inert s := by
  induction segments generalizing path with
  | nil => exact h
  | cons segment rest ih =>
    cases rest with
    | nil => exact inert_addSegment h
    | cons next rest => exact ih (inert_addSegment h)

theorem inert_readPath (scheme : List Char) (special : Bool) (s : List Char) :
    InertPath (readPath scheme special s) := by
  have hsegments (file : Bool) (rest : List (List Char)) :
      InertPath (.segments (addSegments file [] rest)) :=
    inert_addSegments rest fun s hs => absurd hs List.not_mem_nil
  unfold readPath
  dsimp only
  split
  · intro s hs
    split at hs
    · rw [List.mem_singleton.mp hs]
      exact .nil
    · cases hs
  · exact hsegments _ _
  · exact hsegments _ _

theorem inert_readFile? {s host : List Char} {path : Path} (h : readFile? s = some (host, path)) :
    Inert host ∧ InertPath path := by
  unfold readFile? at h
  dsimp only at h
  split at h
  · split at h
    · cases h
      exact ⟨.nil, inert_readPath _ _ _⟩
    · split at h
      · cases h
        exact ⟨.nil, inert_readPath _ _ _⟩
      · obtain ⟨name, hn, h⟩ := Option.bind_eq_some_iff.mp h
        cases h
        refine ⟨?_, inert_readPath _ _ _⟩
        split
        · exact .nil
        · exact Host.inert_read? hn
  · cases h
    exact ⟨.nil, inert_readPath _ _ _⟩

/-- What an address writes before its query. -/
def place (u : Url) : List Char :=
  u.scheme ++ [':'] ++
    (match u.host with
      | some host =>
        ['/', '/'] ++ u.writeUser ++ host ++ (u.port.elim [] fun p => ':' :: (toString p).toList)
      | none => guardPath u.path) ++
    Path.write u.path

theorem write_eq (u : Url) : u.write = String.ofList
    (u.place ++ (u.query.elim [] ('?' :: ·)) ++ (u.fragment.elim [] ('#' :: ·))) := rfl

/-- An address of which every part is written with characters that can stand in it. -/
structure Written (u : Url) : Prop where
  place : Inert u.place
  query : ∀ q, u.query = some q → Queried q
  fragment : ∀ f, u.fragment = some f → ∀ c ∈ f, Printed c

theorem inert_writeUser {u : Url} (hu : Inert u.username) (hp : Inert u.password) :
    Inert u.writeUser := by
  have hat : Inert ['@'] := by simp [Inert, Printed]
  have hcolon : Printed ':' ∧ ':' ≠ '?' ∧ ':' ≠ '#' := by unfold Printed; decide
  unfold writeUser
  split
  · exact .nil
  · refine (hu.append ?_).append hat
    split
    · exact .nil
    · exact hp.cons hcolon

theorem inert_guardPath (p : Path) : Inert (guardPath p) := by
  unfold guardPath
  split
  · simp [Inert, Printed]
  · exact .nil

/-- The parts before the query give the text before it. -/
theorem inert_place {u : Url} (hs : Inert u.scheme) (hu : Inert u.username) (hw : Inert u.password)
    (hh : ∀ host, u.host = some host → Inert host) (hp : InertPath u.path) : Inert u.place := by
  have hcolon : Printed ':' ∧ ':' ≠ '?' ∧ ':' ≠ '#' := by unfold Printed; decide
  have hslashes : Inert ['/', '/'] := by simp [Inert, Printed]
  unfold place
  refine ((hs.append (Inert.nil.cons hcolon)).append ?_).append hp.write
  split
  · next host hhost =>
    refine ((hslashes.append (inert_writeUser hu hw)).append (hh host hhost)).append ?_
    cases u.port with
    | none => exact .nil
    | some port => exact (Inert.toString port).cons hcolon
  · exact inert_guardPath u.path

theorem queried_percentEncode {encoded : Char → Bool} (hc : ∀ c, isControl c → encoded c)
    (hf : encoded '#' = true) (s : List Char) : Queried (percentEncode encoded s) := by
  intro c h
  refine ⟨Host.printed_percentEncode hc c h, ?_⟩
  rintro rfl
  exact Host.not_mem_percentEncode (.inl hf) (by decide) (by decide) h

/-- Query and fragment are encoded in every address that is read. -/
theorem written_of_place {scheme username password : List Char} {host : Option (List Char)}
    {port : Option Nat} {path : Path} {encoded : Char → Bool}
    (hc : ∀ c, isControl c → encoded c) (hf : encoded '#' = true)
    (query fragment : Option (List Char))
    (h : ∀ query fragment,
      Inert (place ⟨scheme, username, password, host, port, path, query, fragment⟩)) :
    Written ⟨scheme, username, password, host, port, path, query.map (percentEncode encoded),
      fragment.map (percentEncode inFragment)⟩ := by
  refine ⟨h _ _, ?_, ?_⟩
  · intro q hq
    obtain ⟨q, -, rfl⟩ := Option.map_eq_some_iff.mp hq
    exact queried_percentEncode hc hf q
  · intro f hf
    obtain ⟨f, -, rfl⟩ := Option.map_eq_some_iff.mp hf
    exact Host.printed_percentEncode inFragment_control

/-- Every address that is read can be written. -/
theorem written_of_parse? {text : String} {u : Url} (h : parse? text = some u) : u.Written := by
  unfold parse? at h
  obtain ⟨⟨scheme, rest⟩, hscheme, h⟩ := Option.bind_eq_some_iff.mp h
  have hs : Inert scheme := inert_takeScheme? hscheme
  have hauthority {special : Bool} {s : List Char} {a : Authority} {path : Path}
      (ha : readAuthority? scheme special s = some a) (hp : InertPath path)
      (query fragment : Option (List Char)) : Inert
        (place ⟨scheme, a.username, a.password, some a.host, a.port, path, query, fragment⟩) := by
    obtain ⟨hu, hw, hh⟩ := inert_readAuthority? ha
    refine inert_place hs hu hw ?_ hp
    intro host he
    cases he
    exact hh
  have halone {path : Path} (hp : InertPath path) (query fragment : Option (List Char)) :
      Inert (place ⟨scheme, [], [], none, none, path, query, fragment⟩) :=
    inert_place hs .nil .nil (fun _ he => nomatch he) hp
  dsimp only at h
  split at h
  · obtain ⟨⟨host, path⟩, hfile, h⟩ := Option.bind_eq_some_iff.mp h
    obtain ⟨hhost, hpath⟩ := inert_readFile? hfile
    cases h
    have hplace (query fragment : Option (List Char)) :
        Inert (place ⟨scheme, [], [], some host, none, path, query, fragment⟩) := by
      refine inert_place hs .nil .nil ?_ hpath
      intro host' he
      cases he
      exact hhost
    split
    · exact written_of_place inSpecialQuery_control (by decide) _ _ hplace
    · exact written_of_place inQuery_control (by decide) _ _ hplace
  · split at h
    · obtain ⟨a, ha, h⟩ := Option.bind_eq_some_iff.mp h
      cases h
      exact written_of_place inSpecialQuery_control (by decide) _ _
        (hauthority ha (inert_readPath _ _ _))
    · split at h
      · obtain ⟨a, ha, h⟩ := Option.bind_eq_some_iff.mp h
        cases h
        exact written_of_place inQuery_control (by decide) _ _
          (hauthority ha (inert_readPath _ _ _))
      · cases h
        exact written_of_place inQuery_control (by decide) _ _ (halone (inert_readPath _ _ _))
      · cases h
        -- a path without parts is what stands before the first mark of query and fragment
        refine written_of_place inQuery_control (by decide) _ _ (halone ?_)
        refine inert_percentEncode (fun _ => id) (.inr (cutMark_fst _ _).1) (.inr fun hm => ?_)
        exact (cutMark_fst _ _).1 ((cutMark_fst _ _).2 hm)

theorem queried_encodePairs (pairs : List (String × String)) :
    Queried (Form.encodePairs pairs) := by
  intro c hc
  rcases Form.mem_encodePairs hc with (ha | hm) | rfl | rfl
  · refine ⟨printed_of_isAlphanum ha, ?_⟩
    rintro rfl
    cases ha
  · have hmarks : ∀ d ∈ ['*', '-', '.', '_', '+', '%'], Printed d ∧ d ≠ '#' := by
      simp [Printed]
    exact hmarks c hm
  · exact ⟨by unfold Printed; decide, by decide⟩
  · exact ⟨by unfold Printed; decide, by decide⟩

theorem withPairs_query (u : Url) (pairs : List (String × String)) :
    ∃ before, (u.withPairs pairs).query = some (before ++ Form.encodePairs pairs) ∧
      (before = [] ∧ u.query.getD [] = [] ∨
        ∃ query, u.query = some query ∧ before = query ++ ['&']) := by
  unfold withPairs
  cases u.query with
  | none => exact ⟨[], rfl, .inl ⟨rfl, rfl⟩⟩
  | some query =>
    cases query with
    | nil => exact ⟨[], rfl, .inl ⟨rfl, rfl⟩⟩
    | cons c query => exact ⟨c :: query ++ ['&'], rfl, .inr ⟨_, rfl, rfl⟩⟩

/-- The pairs of an address stay, and more come behind them. -/
theorem decodePairs_withPairs (u : Url) (pairs : List (String × String)) :
    Form.decodePairs ((u.withPairs pairs).query.getD []) =
      Form.decodePairs (u.query.getD []) ++ pairs := by
  obtain ⟨before, hq, ⟨rfl, hu⟩ | ⟨query, hu, rfl⟩⟩ := u.withPairs_query pairs
  · rw [hq, hu]
    exact Form.decodePairs_encodePairs pairs
  · rw [hq, hu, Option.getD_some, Option.getD_some, List.append_assoc, List.singleton_append,
      Form.decodePairs_append_cons, Form.decodePairs_encodePairs]

/-- More pairs leave an address one that can be written. -/
theorem Written.withPairs {u : Url} (h : u.Written) (pairs : List (String × String)) :
    (u.withPairs pairs).Written := by
  refine ⟨h.place, ?_, h.fragment⟩
  intro q hq
  obtain ⟨before, hq', hbefore⟩ := u.withPairs_query pairs
  cases hq'.symm.trans hq
  intro c hc
  rcases List.mem_append.mp hc with hc | hc
  · obtain ⟨rfl, -⟩ | ⟨query, hu, rfl⟩ := hbefore
    · cases hc
    · rcases List.mem_append.mp hc with hc | hc
      · exact h.query query hu c hc
      · rw [List.mem_singleton.mp hc]
        exact ⟨by unfold Printed; decide, by decide⟩
  · exact queried_encodePairs pairs c hc

theorem Written.isHeaderValue {u : Url} (h : u.Written) : isHeaderValue u.write = true := by
  rw [isHeaderValue_iff, write_eq, String.toList_ofList]
  intro c hc
  rcases List.mem_append.mp hc with hc | hc
  · rcases List.mem_append.mp hc with hc | hc
    · exact (h.place c hc).1
    · cases hq : u.query with
      | none => simp [hq] at hc
      | some query =>
        rw [hq] at hc
        rcases List.mem_cons.mp hc with rfl | hc
        · unfold Printed
          decide
        · exact (h.query query hq c hc).1
  · cases hf : u.fragment with
    | none => simp [hf] at hc
    | some fragment =>
      rw [hf] at hc
      rcases List.mem_cons.mp hc with rfl | hc
      · unfold Printed
        decide
      · exact h.fragment fragment hf c hc

/-- The query of an address is found in its text: no mark of a query stands before it and no mark of
a fragment in it. -/
theorem Written.splitTarget {u : Url} (h : u.Written) :
    (Request.splitTarget u.write).2 = String.ofList (u.query.getD []) := by
  have hplace : '#' ∉ u.place := fun hm => (h.place _ hm).2.2 rfl
  have hquery : '#' ∉ u.place ++ (u.query.elim [] ('?' :: ·)) := by
    intro hm
    rcases List.mem_append.mp hm with hm | hm
    · exact hplace hm
    · cases hq : u.query with
      | none => simp [hq] at hm
      | some query =>
        rw [hq] at hm
        rcases List.mem_cons.mp hm with he | hm
        · cases he
        · exact (h.query query hq _ hm).2 rfl
  have hsent : ((Text.splitFirst '#' u.write.toList).elim u.write.toList Prod.fst) =
      u.place ++ (u.query.elim [] ('?' :: ·)) := by
    rw [write_eq, String.toList_ofList]
    cases u.fragment with
    | none =>
      simp only [Option.elim_none, List.append_nil]
      rw [Text.splitFirst_eq_none_iff.mpr hquery]
      rfl
    | some fragment =>
      simp only [Option.elim_some]
      rw [Text.splitFirst_eq_some_iff.mpr ⟨rfl, hquery⟩]
      rfl
  unfold Request.splitTarget
  rw [hsent]
  have hmark : '?' ∉ u.place := fun hm => (h.place _ hm).2.1 rfl
  cases u.query with
  | none =>
    simp only [Option.elim_none, List.append_nil]
    rw [Text.splitFirst_eq_none_iff.mpr hmark]
    rfl
  | some query =>
    simp only [Option.elim_some]
    rw [Text.splitFirst_eq_some_iff.mpr ⟨rfl, hmark⟩]
    rfl

end Url
end DiceBot.Web
