import DiceBot.Database.Schema

/-!
The two conditions of a database that was only migrated and reverted so far: without the schema, and
with it. What each operation answers is decided by the condition, and only a migration and its
undoing lead from one to the other.
-/

namespace DiceBot.Database.State

/-- A database without the schema: no migration was applied yet, or it was reverted. -/
structure Bare (s : State) : Prop where
  opened : s.closed = false
  ledger : s.ledger = .absent ∨ s.ledger = .entries []
  teams : s.teams = none

/-- A database with the schema and some rows. -/
structure Migrated (s : State) (rows : List Row) : Prop where
  opened : s.closed = false
  ledger : s.ledger = .entries [⟨version, true, true⟩]
  teams : s.teams = some rows

theorem bare_new : State.new.Bare := ⟨rfl, .inl rfl, rfl⟩

namespace Bare

variable {s : State}

theorem entries_eq (h : s.Bare) : s.entries = .ok [] := by
  rcases h.ledger with hl | hl <;> simp [entries, h.opened, hl]

theorem pending_eq (h : s.Bare) : s.pending = .ok 1 := by
  rw [pending, applied, h.entries_eq]
  rfl

theorem sound_eq (h : s.Bare) : s.sound = .ok [] := by
  rw [sound, h.entries_eq]
  rfl

theorem rows_eq (h : s.Bare) : s.rows = .error .noTable := by
  simp [rows, h.opened, h.teams]

theorem names_eq (h : s.Bare) : s.names = .ok [] := by
  simp [names, h.opened, h.teams]

theorem migrate (h : s.Bare) : s.migrate.1 = .ok () ∧ s.migrate.2.Migrated [] := by
  have hm : s.migrate = (.ok (), { s with
      ledger := .entries [⟨version, true, true⟩], teams := some (s.teams.getD []) }) := by
    rw [State.migrate, h.sound_eq]
    rfl
  rw [hm, h.teams]
  exact ⟨rfl, h.opened, rfl, rfl⟩

theorem revert_eq (h : s.Bare) : s.revert = (.ok none, s) := by
  rw [revert, applied, h.entries_eq]
  rfl

end Bare

namespace Migrated

variable {s : State} {rows : List Row}

theorem entries_eq (h : s.Migrated rows) : s.entries = .ok [⟨version, true, true⟩] := by
  simp [entries, h.opened, h.ledger]

theorem pending_eq (h : s.Migrated rows) : s.pending = .ok 0 := by
  rw [pending, applied, h.entries_eq]
  rfl

theorem sound_eq (h : s.Migrated rows) : s.sound = .ok [⟨version, true, true⟩] := by
  rw [sound, h.entries_eq]
  rfl

theorem rows_eq (h : s.Migrated rows) : s.rows = .ok rows := by
  simp [State.rows, h.opened, h.teams]

theorem names_eq (h : s.Migrated rows) :
    s.names = .ok ["idx_roll_teams_bot_id", "roll_teams"] := by
  simp [names, h.opened, h.teams]

theorem migrate_eq (h : s.Migrated rows) : s.migrate = (.ok (), s) := by
  rw [State.migrate, h.sound_eq]
  rfl

theorem revert (h : s.Migrated rows) :
    s.revert.1 = .ok (some version) ∧ s.revert.2.Bare := by
  have hr : s.revert = (.ok (some version), { s with ledger := .entries [], teams := none }) := by
    rw [State.revert, applied, h.entries_eq, h.sound_eq]
    rfl
  rw [hr]
  exact ⟨rfl, h.opened, .inr rfl, rfl⟩

end Migrated
end DiceBot.Database.State
