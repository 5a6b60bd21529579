import DiceBot.Proofs.Database.Schema
import DiceBot.Proofs.Team.Atomic
import DiceBot.Proofs.Team.Mirror
import Mathlib.Data.List.Induction

/-!
A database through its whole life: migrated, reverted and migrated again, under keys that change,
with lookups and saves at any time. The events so far decide what it answers next.
-/

namespace DiceBot.Team.Vault

open Database (Row)

/-- What is done with a database and its key. -/
inductive Step where
  | migrate
  | undo
  | pending
  | rekey (passphrase : String)
  | find (id : Id)
  | save (c : Credentials)

inductive Reply where
  | migrated (result : Except Database.MigrationError Unit)
  | undone (result : Except Database.MigrationError (Option Int))
  | pending (result : Except Database.QueryError Nat)
  | rekeyed
  | found (result : Except StoreError (Option Credentials))
  | saved (result : Except StoreError Saved)

inductive Reply.Failed : Reply → Prop where
  | migrated (error : Database.MigrationError) : Failed (.migrated (.error error))
  | undone (error : Database.MigrationError) : Failed (.undone (.error error))
  | pending (error : Database.QueryError) : Failed (.pending (.error error))
  | found (error : StoreError) : Failed (.found (.error error))
  | saved (error : StoreError) : Failed (.saved (.error error))

def take (v : Vault) : Step → Reply × Vault
  | .migrate =>
    let (result, database) := v.database.migrate
    (.migrated result, { v with database })
  | .undo =>
    let (result, database) := v.database.revert
    (.undone result, { v with database })
  | .pending => (.pending v.database.pending, v)
  | .rekey passphrase => (.rekeyed, { v with key := .ofPassphrase passphrase })
  | .find id => (.found (find id v), v)
  | .save c =>
    let (result, v) := save c v
    (.saved result, v)

structure Event where
  step : Step
  reply : Reply

/-- The events so far, the latest first. -/
abbrev Past := List Event

/-- Takes one step after the other. -/
def run (v : Vault) (steps : List Step) : Past × Vault :=
  steps.foldl (fun (past, v) step => (⟨step, (v.take step).1⟩ :: past, (v.take step).2)) ([], v)

theorem run_snoc (v : Vault) (steps : List Step) (step : Step) :
    v.run (steps ++ [step]) = (⟨step, ((v.run steps).2.take step).1⟩ :: (v.run steps).1,
      ((v.run steps).2.take step).2) := by
  simp only [run, List.foldl_append, List.foldl_cons, List.foldl_nil]

namespace Past

/-- Whether the schema is there: some migration was asked for and no undoing after it. -/
def applied : Past → Bool
  | [] => false
  | ⟨.migrate, _⟩ :: _ => true
  | ⟨.undo, _⟩ :: _ => false
  | _ :: past => applied past

/-- The passphrase in force, from the first one on. -/
def passphrase (first : String) : Past → String
  | [] => first
  | ⟨.rekey latest, _⟩ :: _ => latest
  | _ :: past => passphrase first past

/-- The saves of a team that succeeded since the schema was last reverted, the latest first, each
with the passphrase that was in force. -/
def saves (first : String) (id : Id) : Past → List (String × Credentials)
  | [] => []
  | ⟨.undo, .undone (.ok (some _))⟩ :: _ => []
  | ⟨.save c, .saved (.ok _)⟩ :: past =>
    if c.team = id then (passphrase first past, c) :: saves first id past else saves first id past
  | _ :: past => saves first id past

/-- What the saves of a team leave: the credentials of the latest one with the time of the earliest
one, and the passphrase of the latest one. -/
def kept (first : String) (id : Id) (past : Past) : Option (String × Credentials) :=
  match (past.saves first id).head?, (past.saves first id).getLast? with
  | some (passphrase, latest), some (_, earliest) =>
    some (passphrase, { latest with addedAt := earliest.addedAt })
  | _, _ => none

theorem kept_eq_none_iff {first : String} {id : Id} {past : Past} :
    past.kept first id = none ↔ past.saves first id = [] := by
  unfold kept
  cases h : past.saves first id with
  | nil => simp
  | cons save earlier => simp [List.getLast?_eq_some_getLast (List.cons_ne_nil save earlier)]

/-- A save becomes the latest one of its team, with the time of the earliest one. -/
theorem kept_save (first : String) (id : Id) (c : Credentials) (saved : Saved) (past : Past) :
    kept first id (⟨.save c, .saved (.ok saved)⟩ :: past) = if c.team = id
      then some (past.passphrase first, { c with
        addedAt := ((past.kept first c.team).map fun k => k.2.addedAt).getD c.addedAt })
      else past.kept first id := by
  by_cases hid : c.team = id
  · subst hid
    rw [if_pos rfl]
    unfold kept
    simp only [saves, if_pos]
    cases h : past.saves first c.team with
    | nil => rfl
    | cons save earlier =>
      simp [List.getLast?_eq_some_getLast (List.cons_ne_nil save earlier)]
  · rw [if_neg hid]
    simp only [kept, saves, if_neg hid]

end Past

/-- What rows have of a team: no row where nothing is kept, and a row that gives what is kept under
the passphrase of the latest save. -/
inductive Stored (rows : List Row) (id : Id) : Option (String × Credentials) → Prop where
  | nothing (hf : rows.find? (fun r => r.id = .text id.text) = none) : Stored rows id none
  | row {passphrase : String} {c : Credentials} {row : Row}
      (hf : rows.find? (fun r => r.id = .text id.text) = some row)
      (hg : Gives (.ofPassphrase passphrase) row c) : Stored rows id (some (passphrase, c))

/-- What the events so far make of a database. -/
inductive Shape (first : String) (past : Past) (s : Database.State) : Prop where
  | bare (ha : past.applied = false) (hb : s.Bare) (hs : ∀ id, past.saves first id = [])
  | migrated {rows : List Row} (ha : past.applied = true) (hm : s.Migrated rows)
      (hs : ∀ id, Stored rows id (past.kept first id))

/-- A vault that the events so far led to, from an empty database and the key of a passphrase. -/
structure Follows (first : String) (past : Past) (v : Vault) : Prop where
  key : v.key = .ofPassphrase (past.passphrase first)
  nonces : ∀ n, (v.nonces n).length = SealKey.nonceLength
  shape : Shape first past v.database

theorem find_of_bare {v : Vault} (h : v.database.Bare) (id : Id) :
    find id v = .error (.database Database.QueryError.noTable.detail) := by
  rw [find, Database.State.find, h.rows_eq]
  rfl

theorem save_of_bare {v : Vault} (h : v.database.Bare) (c : Credentials) :
    save c v =
      (.error (.database Database.QueryError.noTable.detail), { v with used := v.used + 2 }) := by
  simp only [save, h.rows_eq]

variable {v : Vault} {rows : List Row}

/-- A team of which nothing is kept is not found. -/
theorem Stored.find_nothing {id : Id} (hm : v.database.Migrated rows) (h : Stored rows id none) :
    find id v = .ok none := by
  cases h with
  | nothing hf => simp only [find, Database.State.find, hm.rows_eq, Except.map, hf]

/-- Under the passphrase of the latest save, that is found which is kept. -/
theorem Stored.find_kept {id : Id} {passphrase : String} {c : Credentials}
    (hm : v.database.Migrated rows) (h : Stored rows id (some (passphrase, c)))
    (hk : v.key = .ofPassphrase passphrase) : find id v = .ok (some c) := by
  cases h with
  | row hf hg =>
    simp only [find, Database.State.find, hm.rows_eq, Except.map, hf, hk, hg.credentialsOf]

/-- Under another key a row may give no credentials, but then only because its tokens stay
sealed. -/
theorem Gives.sealed_or_ok {key : SealKey} {row : Row} {c : Credentials} (h : Gives key row c)
    (other : SealKey) : (∃ error, Vault.credentialsOf other row = .error (.sealing error)) ∨
      ∃ c', Vault.credentialsOf other row = .ok c' := by
  obtain ⟨token, ht, -⟩ := h.token
  obtain ⟨botToken, hb, -⟩ := h.botToken
  obtain ⟨added, ha, ha'⟩ := h.addedAt
  obtain ⟨updated, hu, hu'⟩ := h.updatedAt
  simp only [Vault.credentialsOf, bind, Except.bind, h.id, ht, h.botId, hb, ha, hu, textOf,
    instantOf, ha', hu', tokenOf]
  cases other.reveal token with
  | error error => exact .inl ⟨error, rfl⟩
  | ok token =>
    cases other.reveal botToken with
    | error error => exact .inl ⟨error, rfl⟩
    | ok botToken => exact .inr ⟨_, rfl⟩

/-- Whatever the key, a team of which something is kept has a row. -/
theorem Stored.find_row {id : Id} {latest : String × Credentials}
    (hm : v.database.Migrated rows) (h : Stored rows id (some latest)) :
    (∃ error, find id v = .error (.sealing error)) ∨ ∃ c, find id v = .ok (some c) := by
  cases h with
  | @row _ _ row hf hg =>
    have hfind : find id v = (credentialsOf v.key row).map some := by
      simp only [find, Database.State.find, hm.rows_eq, Except.map, hf]
    rcases hg.sealed_or_ok v.key with ⟨error, he⟩ | ⟨c, hc⟩
    · exact .inl ⟨error, by rw [hfind, he]; rfl⟩
    · exact .inr ⟨c, by rw [hfind, hc]; rfl⟩

/-- A row in the place of the one of its team, or behind all others. -/
theorem Stored.upsert {id : Id} {kept : Option (String × Credentials)} (h : Stored rows id kept)
    {passphrase : String} {row : Row} {c : Credentials}
    (hg : Gives (.ofPassphrase passphrase) row c) :
    Stored (upsert Row.id row rows) id (if c.team = id then some (passphrase, c) else kept) := by
  have hf := find?_upsert Row.id row rows (.text id.text)
  by_cases hid : c.team = id
  · rw [if_pos ((hg.id_iff id).mpr hid)] at hf
    rw [if_pos hid]
    exact .row hf hg
  · rw [if_neg (mt (hg.id_iff id).mp hid)] at hf
    rw [if_neg hid]
    cases h with
    | nothing hf' => exact .nothing (hf.trans hf')
    | row hf' hg' => exact .row (hf.trans hf') hg'

/-- A save stores the credentials of its team under the key in force, and leaves what is stored of
other teams. The row that it takes the place of may be sealed under any other key. -/
theorem save_of_migrated {passphrase : String} (hm : v.database.Migrated rows)
    (hk : v.key = .ofPassphrase passphrase)
    (hn : ∀ n, (v.nonces n).length = SealKey.nonceLength) {c : Credentials} (hc : Dated c)
    {kept : Id → Option (String × Credentials)} (h : ∀ id, Stored rows id (kept id)) :
    ∃ rows', (save c v).1 = .ok (if kept c.team = none then .inserted else .updated) ∧
      (save c v).2 = { v with
        used := v.used + 2, database := { v.database with teams := some rows' } } ∧
      ∀ id, Stored rows' id (if c.team = id
        then some (passphrase, { c with
          addedAt := ((kept c.team).map fun k => k.2.addedAt).getD c.addedAt })
        else kept id) := by
  have hrow : Gives (.ofPassphrase passphrase)
      (rowOf v.key (v.nonces v.used) (v.nonces (v.used + 1)) c) c := by
    rw [hk]
    exact gives_rowOf (SealKey.ofPassphrase_fits passphrase) (hn _) (hn _) hc
  have hid : (rowOf v.key (v.nonces v.used) (v.nonces (v.used + 1)) c).id = .text c.team.text := rfl
  have hteam := h c.team
  cases hkept : kept c.team with
  | none =>
    rw [hkept] at hteam
    cases hteam with
    | nothing hf =>
      simp only [save, hm.rows_eq, hid, hf]
      exact ⟨_, rfl, rfl, fun id => (h id).upsert hrow⟩
  | some latest =>
    rw [hkept] at hteam
    cases hteam with
    | row hf hg =>
      simp only [save, hm.rows_eq, hid, hf]
      exact ⟨_, rfl, rfl, fun id => (h id).upsert (hrow.added_of hg)⟩

/-- Whatever the key, a database with the schema takes a save. -/
theorem save_ok (hm : v.database.Migrated rows) (c : Credentials) :
    ∃ saved, (save c v).1 = .ok saved := by
  simp only [save, hm.rows_eq]
  split
  · exact ⟨.updated, rfl⟩
  · exact ⟨.inserted, rfl⟩

theorem follows_new (first : String) {nonces : Nat → List UInt8}
    (hn : ∀ n, (nonces n).length = SealKey.nonceLength) :
    Follows first [] ⟨Database.State.new, .ofPassphrase first, nonces, 0⟩ :=
  ⟨rfl, hn, .bare rfl Database.State.bare_new fun _ => rfl⟩

/-- Every step leads on to a vault that its event belongs to. -/
theorem Follows.take {first : String} {past : Past} (h : Follows first past v) {step : Step}
    (hd : ∀ c, step = .save c → Dated c) :
    Follows first (⟨step, (v.take step).1⟩ :: past) (v.take step).2 := by
  obtain ⟨hk, hn, hshape⟩ := h
  cases hshape with
  | bare ha hb hs =>
    cases step with
    | migrate =>
      refine ⟨hk, hn, .migrated rfl hb.migrate.2 ?_⟩
      intro id
      have hkept : Past.kept first id (⟨.migrate, (v.take .migrate).1⟩ :: past) = none :=
        Past.kept_eq_none_iff.mpr (hs id)
      rw [hkept]
      exact .nothing rfl
    | undo =>
      simp only [Vault.take, hb.revert_eq]
      exact ⟨hk, hn, .bare rfl hb hs⟩
    | pending => exact ⟨hk, hn, .bare ha hb hs⟩
    | rekey passphrase => exact ⟨rfl, hn, .bare ha hb hs⟩
    | find id => exact ⟨hk, hn, .bare ha hb hs⟩
    | save c =>
      simp only [Vault.take, save_of_bare hb]
      exact ⟨hk, hn, .bare ha hb hs⟩
  | migrated ha hm hs =>
    cases step with
    | migrate =>
      simp only [Vault.take, hm.migrate_eq]
      exact ⟨hk, hn, .migrated rfl hm hs⟩
    | undo =>
      obtain ⟨hr, hb⟩ := hm.revert
      refine ⟨hk, hn, .bare rfl hb ?_⟩
      intro id
      simp only [Vault.take, hr]
      rfl
    | pending => exact ⟨hk, hn, .migrated ha hm hs⟩
    | rekey passphrase => exact ⟨rfl, hn, .migrated ha hm hs⟩
    | find id => exact ⟨hk, hn, .migrated ha hm hs⟩
    | save c =>
      obtain ⟨rows', hr, hv, hs'⟩ := save_of_migrated hm hk hn (hd c rfl) hs
      simp only [Vault.take, hr, hv]
      refine ⟨hk, hn, .migrated ha ⟨hm.opened, hm.ledger, rfl⟩ ?_⟩
      intro id
      rw [Past.kept_save]
      exact hs' id

theorem follows_run (first : String) {nonces : Nat → List UInt8}
    (hn : ∀ n, (nonces n).length = SealKey.nonceLength) (steps : List Step)
    (hd : ∀ c, .save c ∈ steps → Dated c) :
    let v : Vault := ⟨Database.State.new, .ofPassphrase first, nonces, 0⟩
    Follows first (v.run steps).1 (v.run steps).2 := by
  intro v
  induction steps using List.reverseRecOn with
  | nil => exact follows_new first hn
  | append_singleton steps step ih =>
    rw [run_snoc]
    refine (ih fun c hc => hd c (List.mem_append_left _ hc)).take ?_
    rintro c rfl
    exact hd c (List.mem_append_right _ List.mem_cons_self)

section Answers

variable {first : String} {past : Past}

theorem Shape.names_eq {s : Database.State} (h : Shape first past s) :
    s.names = .ok (if past.applied then ["idx_roll_teams_bot_id", "roll_teams"] else []) := by
  cases h with
  | bare ha hb => simp [ha, hb.names_eq]
  | migrated ha hm => simp [ha, hm.names_eq]

theorem Shape.pending_eq {s : Database.State} (h : Shape first past s) :
    s.pending = .ok (if past.applied then 0 else 1) := by
  cases h with
  | bare ha hb => simp [ha, hb.pending_eq]
  | migrated ha hm => simp [ha, hm.pending_eq]

theorem Shape.migrate_ok {s : Database.State} (h : Shape first past s) : s.migrate.1 = .ok () := by
  cases h with
  | bare ha hb => exact hb.migrate.1
  | migrated ha hm => rw [hm.migrate_eq]

theorem Shape.migrate_again {s : Database.State} (h : Shape first past s)
    (ha : past.applied = true) : s.migrate.2 = s := by
  cases h with
  | bare ha' => cases ha.symm.trans ha'
  | migrated _ hm => rw [hm.migrate_eq]

theorem Shape.revert_eq {s : Database.State} (h : Shape first past s) :
    s.revert.1 = .ok (if past.applied then some 1 else none) := by
  cases h with
  | bare ha hb => simp [ha, hb.revert_eq]
  | migrated ha hm => simp [ha, hm.revert.1, Database.version]

/-- A lookup without the schema fails with an error of the database. With it, a team without a save
that stands is not found, and the row of any other one is found, though it may stay sealed. -/
theorem find_cases (h : Shape first past v.database) (id : Id) :
    (past.applied = false ∧ ∃ detail, find id v = .error (.database detail)) ∨
    (past.applied = true ∧ past.saves first id = [] ∧ find id v = .ok none) ∨
    (past.applied = true ∧ past.saves first id ≠ [] ∧
      ((∃ error, find id v = .error (.sealing error)) ∨ ∃ c, find id v = .ok (some c))) := by
  cases h with
  | bare ha hb => exact .inl ⟨ha, _, find_of_bare hb id⟩
  | migrated ha hm hs =>
    right
    have hid := hs id
    cases hk : past.kept first id with
    | none =>
      rw [hk] at hid
      exact .inl ⟨ha, Past.kept_eq_none_iff.mp hk, hid.find_nothing hm⟩
    | some latest =>
      rw [hk] at hid
      have hn : past.saves first id ≠ [] := fun h => by
        cases hk.symm.trans (Past.kept_eq_none_iff.mpr h)
      exact .inr ⟨ha, hn, hid.find_row hm⟩

theorem find_database_error_iff (h : Shape first past v.database) (id : Id) :
    (∃ detail, find id v = .error (.database detail)) ↔ past.applied = false := by
  rcases find_cases h id with ⟨ha, he⟩ | ⟨ha, -, hf⟩ | ⟨ha, -, ⟨error, hf⟩ | ⟨c, hf⟩⟩
  · exact ⟨fun _ => ha, fun _ => he⟩
  all_goals simp [ha, hf]

theorem find_none_iff (h : Shape first past v.database) (id : Id) :
    find id v = .ok none ↔ past.applied = true ∧ past.saves first id = [] := by
  rcases find_cases h id with ⟨ha, detail, hf⟩ | ⟨ha, hs, hf⟩ | ⟨ha, hs, ⟨error, hf⟩ | ⟨c, hf⟩⟩
  · simp [ha, hf]
  all_goals simp [ha, hs, hf]

theorem save_database_error_iff (h : Shape first past v.database) (c : Credentials) :
    (∃ detail, (save c v).1 = .error (.database detail)) ↔ past.applied = false := by
  cases h with
  | bare ha hb => simp [ha, save_of_bare hb]
  | migrated ha hm =>
    obtain ⟨saved, hs⟩ := save_ok hm c
    simp [ha, hs]

/-- Under the passphrase of the latest save a lookup gives that save, with the time of the earliest
one. -/
theorem Follows.find_latest (h : Follows first past v) {id : Id} {latest earliest : Credentials}
    {passphrase : String}
    (hl : (past.saves first id).head? = some (past.passphrase first, latest))
    (he : (past.saves first id).getLast? = some (passphrase, earliest)) :
    find id v = .ok (some { latest with addedAt := earliest.addedAt }) := by
  have hkept : past.kept first id =
      some (past.passphrase first, { latest with addedAt := earliest.addedAt }) := by
    simp only [Past.kept, hl, he]
  cases h.shape with
  | bare ha hb hs =>
    rw [hs id] at hl
    cases hl
  | migrated ha hm hs =>
    have hid := hs id
    rw [hkept] at hid
    exact hid.find_kept hm h.key

/-- A step that fails uses up nonces at most. -/
theorem take_failed (h : Shape first past v.database) {step : Step}
    (hf : (v.take step).1.Failed) : ∃ used, (v.take step).2 = { v with used } := by
  cases step with
  | migrate =>
    simp only [Vault.take, h.migrate_ok] at hf
    cases hf
  | undo =>
    simp only [Vault.take, h.revert_eq] at hf
    cases hf
  | pending => exact ⟨v.used, rfl⟩
  | rekey passphrase => cases hf
  | find id => exact ⟨v.used, rfl⟩
  | save c =>
    cases hs : (save c v).1 with
    | error error => exact ⟨v.used + 2, save_error hs⟩
    | ok saved =>
      simp only [Vault.take, hs] at hf
      cases hf

end Answers

/-- What a database answers after any run of steps from an empty one. The schema is there when a
migration came after the last undoing; that alone decides how many migrations are pending, what is
undone, and whether saves and lookups reach the table. A lookup under the passphrase of the latest
save gives that save with the time of the earliest one, and a save succeeds under any passphrase. -/
theorem lifecycle (first : String) (nonces : Nat → List UInt8)
    (hn : ∀ n, (nonces n).length = SealKey.nonceLength) (steps : List Step)
    (hd : ∀ c, .save c ∈ steps → Dated c) :
    let start : Vault := ⟨Database.State.new, .ofPassphrase first, nonces, 0⟩
    let past := (start.run steps).1
    let v := (start.run steps).2
    v.database.names =
      .ok (if past.applied then ["idx_roll_teams_bot_id", "roll_teams"] else []) ∧
    (v.take .pending).1 = .pending (.ok (if past.applied then 0 else 1)) ∧
    (v.take .migrate).1 = .migrated (.ok ()) ∧
    (past.applied = true → (v.take .migrate).2 = v) ∧
    (v.take .undo).1 = .undone (.ok (if past.applied then some 1 else none)) ∧
    (∀ id, (∃ detail, (v.take (.find id)).1 = .found (.error (.database detail))) ↔
      past.applied = false) ∧
    (∀ c, (∃ detail, (v.take (.save c)).1 = .saved (.error (.database detail))) ↔
      past.applied = false) ∧
    (∀ step, (v.take step).1.Failed → ∃ used, (v.take step).2 = { v with used }) ∧
    (∀ id, (v.take (.find id)).1 = .found (.ok none) ↔
      past.applied = true ∧ past.saves first id = []) ∧
    (∀ id latest earliest passphrase,
      (past.saves first id).head? = some (past.passphrase first, latest) →
      (past.saves first id).getLast? = some (passphrase, earliest) →
      (v.take (.find id)).1 = .found (.ok (some { latest with addedAt := earliest.addedAt }))) ∧
    ∀ passphrase c, past.applied = true →
      ∃ saved,
        (take { v with key := .ofPassphrase passphrase } (.save c)).1 = .saved (.ok saved) := by
  intro start past v
  have h : Follows first past v := follows_run first hn steps hd
  have hfind : ∀ id, (v.take (.find id)).1 = .found (find id v) := fun _ => rfl
  have hsave : ∀ (v : Vault) c, (v.take (.save c)).1 = .saved (save c v).1 := fun _ _ => rfl
  simp only [hfind, hsave, Reply.found.injEq, Reply.saved.injEq]
  refine ⟨h.shape.names_eq, congrArg Reply.pending h.shape.pending_eq,
    congrArg Reply.migrated h.shape.migrate_ok, ?_, congrArg Reply.undone h.shape.revert_eq,
    find_database_error_iff h.shape, save_database_error_iff h.shape, fun _ => take_failed h.shape,
    find_none_iff h.shape, fun _ _ _ _ => h.find_latest, ?_⟩
  · intro ha
    exact congrArg (fun database => { v with database }) (h.shape.migrate_again ha)
  · intro passphrase c ha
    cases h.shape with
    | bare ha' => cases ha.symm.trans ha'
    | migrated _ hm => exact save_ok (v := { v with key := .ofPassphrase passphrase }) hm c

/-- A team that is installed again under a new passphrase, over a row that is sealed under the old
one, after the schema was reverted and applied once more. -/
theorem lifecycle_rekeyed :
    let earlier : Credentials :=
      ⟨⟨"T9"⟩, "xoxp-a", "B1", "xoxb-a", ⟨1714564800, 0⟩, ⟨1714564800, 0⟩⟩
    let later : Credentials :=
      ⟨⟨"T9"⟩, "xoxp-b", "B2", "xoxb-b", ⟨1714568400, 120000000⟩, ⟨1714568400, 120000000⟩⟩
    let steps : List Step := [.migrate, .save later, .undo, .migrate, .save earlier, .rekey "new",
      .save later, .pending]
    let start : Vault := ⟨Database.State.new, .ofPassphrase "old", fun _ => List.replicate 12 0, 0⟩
    let v := (start.run steps).2
    (∀ n, (start.nonces n).length = SealKey.nonceLength) ∧ (∀ c, .save c ∈ steps → Dated c) ∧
    (v.take (.find ⟨"T9"⟩)).1 = .found (.ok (some { later with addedAt := ⟨1714564800, 0⟩ })) ∧
    (v.take .undo).1 = .undone (.ok (some 1)) := by
  intro earlier later steps start v
  have hn : ∀ n, (start.nonces n).length = SealKey.nonceLength := fun _ => rfl
  have hearlier : (⟨1714564800, 0⟩ : Time.Instant).Dated :=
    ⟨by decide +kernel, by decide +kernel, .inl (by decide)⟩
  have hlater : (⟨1714568400, 120000000⟩ : Time.Instant).Dated :=
    ⟨by decide +kernel, by decide +kernel, .inl (by decide)⟩
  have hd : ∀ c, .save c ∈ steps → Dated c := by
    intro c h
    have h : c = later ∨ c = earlier := by
      simp only [steps, List.mem_cons, reduceCtorEq, Step.save.injEq, false_or, List.not_mem_nil,
        or_false] at h
      tauto
    rcases h with rfl | rfl
    · exact ⟨hlater, hlater⟩
    · exact ⟨hearlier, hearlier⟩
  obtain ⟨-, -, -, -, hundo, -, -, -, -, hfind, -⟩ := lifecycle "old" start.nonces hn steps hd
  exact ⟨hn, hd, hfind ⟨"T9"⟩ later earlier "old" rfl rfl, hundo⟩

end DiceBot.Team.Vault
