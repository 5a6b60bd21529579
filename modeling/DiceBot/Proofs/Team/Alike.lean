import DiceBot.Proofs.Outcome
import DiceBot.Proofs.Team.Seal
import DiceBot.Team.Repository
import Mathlib.Data.List.Forall2
import Mathlib.Data.Option.Basic

/-!
Stores that differ in nothing but the tokens that they keep: they fail alike, find the same teams
and stay alike when both save.
-/

namespace DiceBot.Team

/-- The same credentials, but for the tokens. -/
structure Credentials.Alike (c c' : Credentials) : Prop where
  team : c.team = c'.team
  botId : c.botId = c'.botId
  addedAt : c.addedAt = c'.addedAt
  updatedAt : c.updatedAt = c'.updatedAt

theorem Credentials.alike_self (c : Credentials) : c.Alike c := ⟨rfl, rfl, rfl, rfl⟩

/-- What is found first in two lists that are related item by item. -/
theorem find?_rel {α β : Type} {same : α → β → Prop} {p : α → Bool} {q : β → Bool}
    (hpq : ∀ a b, same a b → p a = q b) {list : List α} {list' : List β}
    (h : List.Forall₂ same list list') : Option.Rel same (list.find? p) (list'.find? q) := by
  induction h with
  | nil => exact .none
  | @cons a b list list' hab _ ih =>
    rw [List.find?_cons, List.find?_cons, hpq a b hab]
    cases q b with
    | true => exact .some hab
    | false => exact ih

theorem upsert_rel {α β κ : Type} [DecidableEq κ] {same : α → β → Prop} {key : α → κ}
    {key' : β → κ} (hkey : ∀ a b, same a b → key a = key' b) {row : α} {row' : β}
    (hrow : same row row') {list : List α} {list' : List β} (h : List.Forall₂ same list list') :
    List.Forall₂ same (upsert key row list) (upsert key' row' list') := by
  induction h with
  | nil => exact .cons hrow .nil
  | @cons a b list list' hab h ih =>
    rw [upsert, upsert, hkey a b hab, hkey row row' hrow]
    split
    · exact .cons hrow h
    · exact .cons hab ih

namespace Memory

theorem find_alike {rows rows' : List Credentials} (h : List.Forall₂ Credentials.Alike rows rows')
    (id : Id) : Option.Rel Credentials.Alike (find id rows) (find id rows') :=
  find?_rel (fun c c' hc => by rw [hc.team]) h

theorem save_alike {rows rows' : List Credentials} (h : List.Forall₂ Credentials.Alike rows rows')
    {c c' : Credentials} (hc : c.Alike c') : (save c rows).1 = (save c' rows').1 ∧
      List.Forall₂ Credentials.Alike (save c rows).2 (save c' rows').2 := by
  have hteam (a b : Credentials) (hab : a.Alike b) : a.team = b.team := hab.team
  have hfind := find_alike h c.team
  have hsame : find c'.team rows' = find c.team rows' := by rw [hc.team]
  unfold save
  rw [hsame]
  generalize find c.team rows = found, find c.team rows' = found' at hfind ⊢
  cases hfind with
  | none => exact ⟨rfl, upsert_rel hteam hc h⟩
  | @some earlier earlier' he =>
    have hkept : Credentials.Alike { c with addedAt := earlier.addedAt }
        { c' with addedAt := earlier'.addedAt } := ⟨hc.team, hc.botId, he.addedAt, hc.updatedAt⟩
    exact ⟨rfl, upsert_rel hteam hkept h⟩

end Memory

namespace Vault

open Database (Cell Row)

/-- Stored tokens that are the same or can both be revealed. -/
def StoredAlike (key : SealKey) (stored stored' : String) : Prop :=
  stored = stored' ∨
    (∃ token, key.reveal stored = .ok token) ∧ ∃ token, key.reveal stored' = .ok token

inductive CellAlike (key : SealKey) : Cell → Cell → Prop where
  | same (cell : Cell) : CellAlike key cell cell
  | stored {stored stored' : String} (h : StoredAlike key stored stored') :
      CellAlike key (.text stored) (.text stored')

/-- The same rows, but for the tokens. -/
structure RowAlike (key : SealKey) (row row' : Row) : Prop where
  id : row.id = row'.id
  token : CellAlike key row.token row'.token
  botId : row.botId = row'.botId
  botToken : CellAlike key row.botToken row'.botToken
  addedAt : row.addedAt = row'.addedAt
  updatedAt : row.updatedAt = row'.updatedAt

theorem rowAlike_self (key : SealKey) (row : Row) : RowAlike key row row :=
  ⟨rfl, .same _, rfl, .same _, rfl, rfl⟩

theorem textOf_alike {key : SealKey} {cell cell' : Cell} (h : CellAlike key cell cell') :
    SameOutcome (StoredAlike key) (textOf cell) (textOf cell') := by
  cases h with
  | same =>
    cases cell with
    | text value => exact .ok (.inl rfl)
    | bytes value => exact .error _
  | stored h => exact .ok h

theorem tokenOf_alike {key : SealKey} {stored stored' : String}
    (h : StoredAlike key stored stored') :
    SameOutcome (fun _ _ => True) (tokenOf key stored) (tokenOf key stored') := by
  rcases h with rfl | ⟨⟨token, h⟩, token', h'⟩
  · cases tokenOf key stored with
    | error error => exact .error error
    | ok token => exact .ok trivial
  · rw [tokenOf, tokenOf, h, h']
    exact .ok trivial

theorem credentialsOf_alike {key : SealKey} {row row' : Row} (h : RowAlike key row row') :
    SameOutcome Credentials.Alike (credentialsOf key row) (credentialsOf key row') := by
  unfold credentialsOf
  rw [← h.id, ← h.botId, ← h.addedAt, ← h.updatedAt]
  refine (SameOutcome.refl (textOf row.id)).bind ?_
  rintro id _ rfl
  refine (textOf_alike h.token).bind fun token token' ht => ?_
  refine (SameOutcome.refl (textOf row.botId)).bind ?_
  rintro botId _ rfl
  refine (textOf_alike h.botToken).bind fun botToken botToken' hb => ?_
  refine (SameOutcome.refl (textOf row.addedAt)).bind ?_
  rintro added _ rfl
  refine (SameOutcome.refl (textOf row.updatedAt)).bind ?_
  rintro updated _ rfl
  refine (SameOutcome.refl (instantOf "added_at" added)).bind ?_
  rintro addedAt _ rfl
  refine (SameOutcome.refl (instantOf "updated_at" updated)).bind ?_
  rintro updatedAt _ rfl
  refine (tokenOf_alike ht).bind fun _ _ _ => ?_
  refine (tokenOf_alike hb).bind fun _ _ _ => ?_
  exact .ok ⟨rfl, rfl, rfl, rfl⟩

theorem rowOf_alike {key : SealKey} (hk : key.Fits) {nonce botNonce nonce' botNonce' : List UInt8}
    (hn : nonce.length = SealKey.nonceLength) (hb : botNonce.length = SealKey.nonceLength)
    (hn' : nonce'.length = SealKey.nonceLength) (hb' : botNonce'.length = SealKey.nonceLength)
    {c c' : Credentials} (h : c.Alike c') :
    RowAlike key (rowOf key nonce botNonce c) (rowOf key nonce' botNonce' c') where
  id := congrArg (fun team : Id => Cell.text team.text) h.team
  token :=
    .stored (.inr ⟨⟨_, SealKey.reveal_sealWith hk hn _⟩, _, SealKey.reveal_sealWith hk hn' _⟩)
  botId := congrArg Cell.text h.botId
  botToken :=
    .stored (.inr ⟨⟨_, SealKey.reveal_sealWith hk hb _⟩, _, SealKey.reveal_sealWith hk hb' _⟩)
  addedAt := congrArg (fun t : Time.Instant => Cell.text t.stamp) h.addedAt
  updatedAt := congrArg (fun t : Time.Instant => Cell.text t.stamp) h.updatedAt

/-- Databases that differ in the tokens of their rows at most. -/
structure DatabaseAlike (key : SealKey) (s s' : Database.State) : Prop where
  closed : s.closed = s'.closed
  ledger : s.ledger = s'.ledger
  teams : Option.Rel (List.Forall₂ (RowAlike key)) s.teams s'.teams

/-- Vaults with one key and with databases that are alike. The nonces may be others. -/
structure Alike (v v' : Vault) : Prop where
  key : v.key = v'.key
  fits : v.key.Fits
  nonces : ∀ n, (v.nonces n).length = SealKey.nonceLength
  nonces' : ∀ n, (v'.nonces n).length = SealKey.nonceLength
  database : DatabaseAlike v.key v.database v'.database

theorem DatabaseAlike.rows {key : SealKey} {s s' : Database.State} (h : DatabaseAlike key s s') :
    SameOutcome (List.Forall₂ (RowAlike key)) s.rows s'.rows := by
  have hteams := h.teams
  unfold Database.State.rows
  rw [← h.closed]
  generalize s.teams = teams, s'.teams = teams' at hteams ⊢
  split
  · exact .error _
  · cases hteams with
    | none => exact .error _
    | some hrows => exact .ok hrows

theorem find_alike {v v' : Vault} (h : v.Alike v') (id : Id) :
    SameOutcome (Option.Rel Credentials.Alike) (find id v) (find id v') := by
  have hrows := h.database.rows
  unfold find Database.State.find
  rw [← h.key]
  generalize v.database.rows = rows, v'.database.rows = rows' at hrows ⊢
  cases hrows with
  | error error => exact .error _
  | @ok rows rows' hrows =>
    have hfound := find?_rel (p := fun r : Row => r.id = .text id.text)
      (q := fun r : Row => r.id = .text id.text) (fun r r' hr => by rw [hr.id]) hrows
    simp only [Except.map]
    generalize rows.find? (fun r => r.id = .text id.text) = found,
      rows'.find? (fun r => r.id = .text id.text) = found' at hfound ⊢
    cases hfound with
    | none => exact .ok .none
    | some hrow => exact (credentialsOf_alike hrow).map fun _ _ => .some

theorem save_alike {v v' : Vault} (h : v.Alike v') {c c' : Credentials} (hc : c.Alike c') :
    (save c v).1 = (save c' v').1 ∧ (save c v).2.Alike (save c' v').2 := by
  have hrows := h.database.rows
  have hrow : RowAlike v.key (rowOf v.key (v.nonces v.used) (v.nonces (v.used + 1)) c)
      (rowOf v'.key (v'.nonces v'.used) (v'.nonces (v'.used + 1)) c') := by
    rw [← h.key]
    exact rowOf_alike h.fits (h.nonces _) (h.nonces _) (h.nonces' _) (h.nonces' _) hc
  have hput {rows rows' : List Row} (hr : List.Forall₂ (RowAlike v.key) rows rows') {row row' : Row}
      (hrow : RowAlike v.key row row') : DatabaseAlike v.key
        { v.database with teams := some (upsert Row.id row rows) }
        { v'.database with teams := some (upsert Row.id row' rows') } :=
    ⟨h.database.closed, h.database.ledger, .some (upsert_rel (fun _ _ ha => ha.id) hrow hr)⟩
  unfold save
  generalize rowOf v.key (v.nonces v.used) (v.nonces (v.used + 1)) c = row,
    rowOf v'.key (v'.nonces v'.used) (v'.nonces (v'.used + 1)) c' = row' at hrow ⊢
  dsimp only
  generalize v.database.rows = answer, v'.database.rows = answer' at hrows ⊢
  cases hrows with
  | error error => exact ⟨rfl, h.key, h.fits, h.nonces, h.nonces', h.database⟩
  | @ok rows rows' hrows =>
    have hfound := find?_rel (p := fun r : Row => r.id = row.id)
      (q := fun r : Row => r.id = row'.id) (fun r r' hr => by rw [hr.id, hrow.id]) hrows
    dsimp only
    generalize rows.find? (fun r => r.id = row.id) = found,
      rows'.find? (fun r => r.id = row'.id) = found' at hfound ⊢
    cases hfound with
    | none => exact ⟨rfl, h.key, h.fits, h.nonces, h.nonces', hput hrows hrow⟩
    | some he =>
      refine ⟨rfl, h.key, h.fits, h.nonces, h.nonces', hput hrows ?_⟩
      exact ⟨hrow.id, hrow.token, hrow.botId, hrow.botToken, he.addedAt, hrow.updatedAt⟩

end Vault

/-- A store that cannot tell states of a relation apart, nor credentials by their tokens. -/
structure Store.Blind {τ : Type} (store : Store τ) (alike : τ → τ → Prop) : Prop where
  find : ∀ {t t'} id, alike t t' →
    SameOutcome (Option.Rel Credentials.Alike) (store.find id t) (store.find id t')
  save : ∀ {t t'} {c c' : Credentials}, alike t t' → c.Alike c' →
    (store.save c t).1 = (store.save c' t').1 ∧ alike (store.save c t).2 (store.save c' t').2

theorem Store.Blind.find_cases {τ : Type} {store : Store τ} {alike : τ → τ → Prop}
    (h : store.Blind alike) {t t' : τ} (ht : alike t t') (id : Id) :
    (∃ error, store.find id t = .error error ∧ store.find id t' = .error error) ∨
    (store.find id t = .ok none ∧ store.find id t' = .ok none) ∨
    ∃ c c', store.find id t = .ok (some c) ∧ store.find id t' = .ok (some c') := by
  have hfind := h.find id ht
  generalize store.find id t = found, store.find id t' = found' at hfind ⊢
  cases hfind with
  | error error => exact .inl ⟨error, rfl, rfl⟩
  | ok hfound =>
    cases hfound with
    | none => exact .inr (.inl ⟨rfl, rfl⟩)
    | some _ => exact .inr (.inr ⟨_, _, rfl, rfl⟩)

namespace Repository

/-- Repositories that differ in their tokens at most. -/
inductive Alike : Repository → Repository → Prop where
  | memory {rows rows' : List Credentials} (h : List.Forall₂ Credentials.Alike rows rows') :
      Alike (.memory rows) (.memory rows')
  | vault {v v' : Vault} (h : v.Alike v') : Alike (.vault v) (.vault v')

/-- Both stores are blind for tokens. -/
theorem store_blind : store.Blind Alike where
  find id h := by
    cases h with
    | memory h => exact .ok (Memory.find_alike h id)
    | vault h => exact Vault.find_alike h id
  save h hc := by
    cases h with
    | memory h =>
      obtain ⟨hs, hr⟩ := Memory.save_alike h hc
      exact ⟨congrArg Except.ok hs, .memory hr⟩
    | vault h =>
      obtain ⟨hs, hv⟩ := Vault.save_alike h hc
      exact ⟨hs, .vault hv⟩

/-- A repository that can work: a memory, or a database with a key and nonces that fit. -/
def Works : Repository → Prop
  | .memory _ => True
  | .vault v => v.key.Fits ∧ ∀ n, (v.nonces n).length = SealKey.nonceLength

theorem alike_self {r : Repository} (h : r.Works) : r.Alike r := by
  cases r with
  | memory rows => exact .memory (List.forall₂_same.mpr fun c _ => c.alike_self)
  | vault v =>
    refine .vault ⟨rfl, h.1, h.2, h.2, rfl, rfl, ?_⟩
    cases v.database.teams with
    | none => exact .none
    | some rows => exact .some (List.forall₂_same.mpr fun row _ => Vault.rowAlike_self v.key row)

/-- The database of a repository that has one. -/
def database? : Repository → Option Database.State
  | .memory _ => none
  | .vault v => some v.database

end Repository
end DiceBot.Team
