import DiceBot.Proofs.Team.Seal
import DiceBot.Proofs.Time.Stamp
import DiceBot.Team.Vault
import Mathlib.Data.List.Forall2

/-!
A database holds, row by row, the credentials that a memory holds: it finds the same ones and stays
the same as the memory when both save.
-/

namespace DiceBot.Team.Vault

open Database (Row)

/-- A row that gives credentials under a key. -/
structure Gives (key : SealKey) (row : Row) (c : Credentials) : Prop where
  id : row.id = .text c.team.text
  token : ∃ stored, row.token = .text stored ∧ key.reveal stored = .ok c.token
  botId : row.botId = .text c.botId
  botToken : ∃ stored, row.botToken = .text stored ∧ key.reveal stored = .ok c.botToken
  addedAt : ∃ stamp, row.addedAt = .text stamp ∧ Time.Instant.ofStamp? stamp = some c.addedAt
  updatedAt : ∃ stamp, row.updatedAt = .text stamp ∧ Time.Instant.ofStamp? stamp = some c.updatedAt

theorem Gives.credentialsOf {key : SealKey} {row : Row} {c : Credentials} (h : Gives key row c) :
    credentialsOf key row = .ok c := by
  obtain ⟨token, ht, ht'⟩ := h.token
  obtain ⟨botToken, hb, hb'⟩ := h.botToken
  obtain ⟨added, ha, ha'⟩ := h.addedAt
  obtain ⟨updated, hu, hu'⟩ := h.updatedAt
  simp only [Vault.credentialsOf, bind, Except.bind, h.id, ht, h.botId, hb, ha, hu, textOf,
    instantOf, ha', hu', tokenOf, ht', hb']
  rfl

/-- The times of credentials can be written. -/
structure Dated (c : Credentials) : Prop where
  added : c.addedAt.Dated
  updated : c.updatedAt.Dated

theorem gives_rowOf {key : SealKey} (hk : key.Fits) {nonce botNonce : List UInt8}
    (hn : nonce.length = SealKey.nonceLength) (hb : botNonce.length = SealKey.nonceLength)
    {c : Credentials} (hc : Dated c) : Gives key (rowOf key nonce botNonce c) c where
  id := rfl
  token := ⟨_, rfl, SealKey.reveal_sealWith hk hn c.token⟩
  botId := rfl
  botToken := ⟨_, rfl, SealKey.reveal_sealWith hk hb c.botToken⟩
  addedAt := ⟨_, rfl, Time.Instant.ofStamp?_stamp hc.added⟩
  updatedAt := ⟨_, rfl, Time.Instant.ofStamp?_stamp hc.updated⟩

/-- A row that takes over the time of another one gives that time, whatever key sealed the other. -/
theorem Gives.added_of {key key' : SealKey} {row earlier : Row} {c c' : Credentials}
    (h : Gives key row c) (h' : Gives key' earlier c') :
    Gives key { row with addedAt := earlier.addedAt } { c with addedAt := c'.addedAt } where
  id := h.id
  token := h.token
  botId := h.botId
  botToken := h.botToken
  addedAt := h'.addedAt
  updatedAt := h.updatedAt

theorem Gives.id_iff {key : SealKey} {row : Row} {c : Credentials} (h : Gives key row c) (id : Id) :
    row.id = .text id.text ↔ c.team = id := by
  rw [h.id]
  constructor
  · intro he
    cases c with
    | mk team =>
    cases team
    cases id
    cases he
    rfl
  · rintro rfl
    rfl

/-- A vault whose rows give the credentials of a memory, one by one. -/
structure Mirrors (v : Vault) (memory : List Credentials) : Prop where
  opened : v.database.closed = false
  table : ∃ rows, v.database.teams = some rows ∧ List.Forall₂ (Gives v.key) rows memory
  fits : v.key.Fits
  nonces : ∀ n, (v.nonces n).length = SealKey.nonceLength

theorem Mirrors.rows {v : Vault} {memory : List Credentials} (h : v.Mirrors memory) :
    ∃ rows, v.database.rows = .ok rows ∧ List.Forall₂ (Gives v.key) rows memory := by
  obtain ⟨rows, ht, hg⟩ := h.table
  refine ⟨rows, ?_, hg⟩
  simp only [Database.State.rows, h.opened, ht]
  rfl

/-- The first row with an id gives the first credentials with it. -/
theorem find?_gives {key : SealKey} {rows : List Row} {memory : List Credentials}
    (h : List.Forall₂ (Gives key) rows memory) (id : Id) :
    (rows.find? (fun r => r.id = .text id.text) = none ∧ Memory.find id memory = none) ∨
    ∃ row c, rows.find? (fun r => r.id = .text id.text) = some row ∧
      Memory.find id memory = some c ∧ Gives key row c := by
  induction h with
  | nil => exact .inl ⟨rfl, rfl⟩
  | @cons row c rows memory hg _ ih =>
    by_cases hid : c.team = id
    · right
      exact ⟨row, c, List.find?_cons_of_pos (by simpa using (hg.id_iff id).mpr hid),
        List.find?_cons_of_pos (by simpa using hid), hg⟩
    · have hr : rows.find? (fun r => r.id = .text id.text) =
          (row :: rows).find? (fun r => r.id = .text id.text) :=
        (List.find?_cons_of_neg (by simpa using mt (hg.id_iff id).mp hid)).symm
      have hc : Memory.find id memory = Memory.find id (c :: memory) :=
        (List.find?_cons_of_neg (by simpa using hid)).symm
      rw [← hr, ← hc]
      exact ih

theorem upsert_gives {key : SealKey} {rows : List Row} {memory : List Credentials}
    (h : List.Forall₂ (Gives key) rows memory) {row : Row} {c : Credentials}
    (hg : Gives key row c) :
    List.Forall₂ (Gives key) (upsert Row.id row rows) (upsert Credentials.team c memory) := by
  induction h with
  | nil => exact .cons hg .nil
  | @cons row' c' rows memory hg' ht ih =>
    have hid : row'.id = row.id ↔ c'.team = c.team := by
      rw [hg.id]
      exact hg'.id_iff c.team
    unfold upsert
    by_cases he : c'.team = c.team
    · rw [if_pos he, if_pos (hid.mpr he)]
      exact .cons hg ht
    · rw [if_neg he, if_neg (mt hid.mp he)]
      exact .cons hg' ih

theorem Mirrors.find_eq {v : Vault} {memory : List Credentials} (h : v.Mirrors memory) (id : Id) :
    Vault.find id v = .ok (Memory.find id memory) := by
  obtain ⟨rows, hr, hg⟩ := h.rows
  unfold Vault.find Database.State.find
  rw [hr]
  rcases find?_gives hg id with ⟨hn, hn'⟩ | ⟨row, c, hs, hs', hc⟩
  · simp only [Except.map, hn, hn']
  · simp only [Except.map, hs, hs', hc.credentialsOf]

theorem Mirrors.save {v : Vault} {memory : List Credentials} (h : v.Mirrors memory)
    {c : Credentials} (hc : Dated c) :
    (Vault.save c v).1 = .ok (Memory.save c memory).1 ∧
      (Vault.save c v).2.Mirrors (Memory.save c memory).2 := by
  obtain ⟨rows, hr, hg⟩ := h.rows
  have hrow := gives_rowOf h.fits (h.nonces v.used) (h.nonces (v.used + 1)) hc
  rcases find?_gives hg c.team with ⟨hn, hn'⟩ | ⟨row, c', hs, hs', hc'⟩
  · have hn : rows.find? (fun r => r.id =
        (rowOf v.key (v.nonces v.used) (v.nonces (v.used + 1)) c).id) = none := hn
    simp only [Vault.save, Memory.save, hr, hn', hn]
    exact ⟨trivial, h.opened, ⟨_, rfl, upsert_gives hg hrow⟩, h.fits, h.nonces⟩
  · have hs : rows.find? (fun r => r.id =
        (rowOf v.key (v.nonces v.used) (v.nonces (v.used + 1)) c).id) = some row := hs
    simp only [Vault.save, Memory.save, hr, hs', hs]
    exact ⟨trivial, h.opened, ⟨_, rfl, upsert_gives hg (hrow.added_of hc')⟩, h.fits, h.nonces⟩

/-- A database that was just migrated has no rows. -/
theorem mirrors_migrated {v : Vault} (hd : v.database = Database.State.new.migrate.2)
    (hk : v.key.Fits) (hn : ∀ n, (v.nonces n).length = SealKey.nonceLength) : v.Mirrors [] where
  opened := by rw [hd]; rfl
  table := by
    rw [hd]
    exact ⟨[], rfl, .nil⟩
  fits := hk
  nonces := hn

end DiceBot.Team.Vault
