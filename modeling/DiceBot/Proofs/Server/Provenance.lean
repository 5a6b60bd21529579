import DiceBot.Proofs.Server.CallbackGate
import DiceBot.Proofs.Server.CommandGate
import DiceBot.Proofs.Team.Holding
import DiceBot.Server.Routes
import Mathlib.Data.List.Induction

/-!
Where stored credentials come from: over any run from an empty store, a team has the tokens of the
last grant for it and the time of the first, and no request but a grant changes what a team has.
-/

namespace DiceBot.Server

open Web (Request)

variable {σ τ δ : Type}

namespace Bot

/-- A request that gets credentials granted: a callback that is let through, with a grant of Slack
for a team. -/
def Grants (bot : Bot σ τ δ) (now : Time.Instant) (r : Request) (w : World σ τ δ)
    (c : Team.Credentials) : Prop :=
  Route.find bot.database.isSome r.method r.path = .ok .validate ∧
    ∃ callback, Callback.ofQuery? r.query = some callback ∧ bot.Installs callback now w c

/-- A slash command that can be read. -/
def Commands (bot : Bot σ τ δ) (r : Request) (p : Slack.Payload) : Prop :=
  Route.find bot.database.isSome r.method r.path = .ok .command ∧ payloadOf r = .ok p

/-- The credentials that the request at a place of a run gets granted. -/
def GrantAt (bot : Bot σ τ δ) (requests : List (Time.Instant × Request)) (w : World σ τ δ) (n : Nat)
    (c : Team.Credentials) : Prop :=
  ∃ now r, requests[n]? = some (now, r) ∧ bot.Grants now r (bot.run (requests.take n) w).2 c

/-- The first and the last credentials that a run gets granted for a team. -/
def Granted (bot : Bot σ τ δ) (requests : List (Time.Instant × Request)) (w : World σ τ δ)
    (id : Team.Id) (first last : Team.Credentials) : Prop :=
  ∃ n m, bot.GrantAt requests w n first ∧ first.team = id ∧ bot.GrantAt requests w m last ∧
    last.team = id ∧ ∀ k c, bot.GrantAt requests w k c → c.team = id → n ≤ k ∧ k ≤ m

theorem Grants.unique {bot : Bot σ τ δ} {now : Time.Instant} {r : Request} {w : World σ τ δ}
    {c c' : Team.Credentials} (h : bot.Grants now r w c) (h' : bot.Grants now r w c') : c = c' := by
  obtain ⟨-, callback, hc, hi⟩ := h
  obtain ⟨-, callback', hc', hi'⟩ := h'
  cases hc.symm.trans hc'
  exact hi.unique hi'

/-- Granted credentials bear the time of the grant. -/
theorem Grants.times {bot : Bot σ τ δ} {now : Time.Instant} {r : Request} {w : World σ τ δ}
    {c : Team.Credentials} (h : bot.Grants now r w c) : c.addedAt = now ∧ c.updatedAt = now := by
  obtain ⟨-, callback, -, code, grant, team, -, -, -, rfl⟩ := h
  exact ⟨rfl, rfl⟩

/-- A request that gets credentials granted saves them. -/
theorem Grants.teams_eq {bot : Bot σ τ δ} {now : Time.Instant} {r : Request} {w : World σ τ δ}
    {c : Team.Credentials} (h : bot.Grants now r w c) :
    (bot.respond now r w).2.2.teams = (bot.store.save c w.teams).2 := by
  obtain ⟨hr, callback, hc, hi⟩ := h
  obtain ⟨code, trace, -, -, he⟩ := hi.answer
  simp only [respond, hr, answerRoute, hc, he]

/-- No other request changes the store. -/
theorem respond_teams_eq {bot : Bot σ τ δ} {now : Time.Instant} {r : Request} {w : World σ τ δ}
    (h : ¬ ∃ c, bot.Grants now r w c) : (bot.respond now r w).2.2.teams = w.teams := by
  unfold respond
  cases hr : Route.find bot.database.isSome r.method r.path with
  | error status => rfl
  | ok route =>
    change (bot.answerRoute now r w route).2.2.teams = w.teams
    cases route with
    | home =>
      unfold answerRoute
      cases installedOf? r.query <;> rfl
    | command =>
      unfold answerRoute
      cases hp : payloadOf r with
      | error status => rfl
      | ok payload => exact (answerPayload_end bot payload Fault.unassigned w).teams_eq
    | authenticate => rfl
    | validate =>
      unfold answerRoute
      cases hc : Callback.ofQuery? r.query with
      | none => rfl
      | some callback =>
        have hn : ¬ ∃ c, bot.Installs callback now w c := by
          rintro ⟨c, hi⟩
          exact h ⟨c, hr, callback, hc, hi⟩
        obtain ⟨status, said, trace, w', he, ht⟩ := endInstallation_not_installs hn
        change (bot.endInstallation callback now w).2.2.teams = w.teams
        rw [he]
        exact ht
    | health =>
      unfold answerRoute
      cases bot.database <;> rfl

/-- A command is answered as its payload is. -/
theorem Commands.respond_eq {bot : Bot σ τ δ} {r : Request} {p : Slack.Payload}
    (h : bot.Commands r p) (now : Time.Instant) (w : World σ τ δ) :
    (bot.respond now r w).2 = (bot.answerPayload p Fault.unassigned w).2 := by
  simp only [respond, h.1, answerRoute, h.2]

theorem run_append (bot : Bot σ τ δ) (a b : List (Time.Instant × Request)) (w : World σ τ δ) :
    (bot.run (a ++ b) w).2 = (bot.run b (bot.run a w).2).2 := by
  induction a generalizing w with
  | nil => rfl
  | cons x a ih =>
    obtain ⟨now, r⟩ := x
    exact ih (bot.respond now r w).2.2

theorem run_snoc (bot : Bot σ τ δ) (requests : List (Time.Instant × Request)) (now : Time.Instant)
    (r : Request) (w : World σ τ δ) :
    (bot.run (requests ++ [(now, r)]) w).2 = (bot.respond now r (bot.run requests w).2).2.2 :=
  run_append bot requests [(now, r)] w

theorem GrantAt.lt_length {bot : Bot σ τ δ} {requests : List (Time.Instant × Request)}
    {w : World σ τ δ} {n : Nat} {c : Team.Credentials} (h : bot.GrantAt requests w n c) :
    n < requests.length := by
  obtain ⟨now, r, hn, -⟩ := h
  exact (List.getElem?_eq_some_iff.mp hn).1

/-- One more request leaves the earlier grants and may add one. -/
theorem grantAt_snoc {bot : Bot σ τ δ} {requests : List (Time.Instant × Request)}
    {now : Time.Instant} {r : Request} {w : World σ τ δ} {n : Nat} {c : Team.Credentials} :
    bot.GrantAt (requests ++ [(now, r)]) w n c ↔ bot.GrantAt requests w n c ∨
      (n = requests.length ∧ bot.Grants now r (bot.run requests w).2 c) := by
  constructor
  · rintro ⟨now', r', hn, hg⟩
    rcases Nat.lt_trichotomy n requests.length with hlt | heq | hgt
    · left
      rw [List.getElem?_append_left hlt] at hn
      rw [List.take_append_of_le_length (Nat.le_of_lt hlt)] at hg
      exact ⟨now', r', hn, hg⟩
    · right
      subst heq
      rw [List.getElem?_concat_length] at hn
      rw [List.take_left] at hg
      cases hn
      exact ⟨rfl, hg⟩
    · rw [List.getElem?_eq_none (by simp; omega)] at hn
      cases hn
  · rintro (h | ⟨rfl, hg⟩)
    · have hlt := h.lt_length
      obtain ⟨now', r', hn, hg⟩ := h
      refine ⟨now', r', ?_, ?_⟩
      · rw [List.getElem?_append_left hlt, hn]
      · rw [List.take_append_of_le_length (Nat.le_of_lt hlt)]
        exact hg
    · refine ⟨now, r, List.getElem?_concat_length, ?_⟩
      rw [List.take_left]
      exact hg

/-- A run gets credentials granted for a team. -/
def GrantsTo (bot : Bot σ τ δ) (requests : List (Time.Instant × Request)) (w : World σ τ δ)
    (id : Team.Id) : Prop := ∃ n c, bot.GrantAt requests w n c ∧ c.team = id

/-- What a list of credentials has for a team after a run. -/
inductive KeptFor (bot : Bot σ τ δ) (requests : List (Time.Instant × Request)) (w : World σ τ δ)
    (rows : List Team.Credentials) (id : Team.Id) : Prop where
  | nothing (hn : ¬ bot.GrantsTo requests w id) (hf : Team.Memory.find id rows = none)
  | granted {first last} (hg : bot.Granted requests w id first last)
      (hf : Team.Memory.find id rows = some { last with addedAt := first.addedAt })

/-- A request without a grant for the team leaves the first and the last one. -/
theorem Granted.snoc_other {bot : Bot σ τ δ} {requests : List (Time.Instant × Request)}
    {w : World σ τ δ} {id : Team.Id} {first last : Team.Credentials}
    (h : bot.Granted requests w id first last) {now : Time.Instant} {r : Request}
    (hn : ¬ ∃ c, bot.Grants now r (bot.run requests w).2 c ∧ c.team = id) :
    bot.Granted (requests ++ [(now, r)]) w id first last := by
  obtain ⟨n, m, hf, hfid, hl, hlid, hall⟩ := h
  refine ⟨n, m, grantAt_snoc.mpr (.inl hf), hfid, grantAt_snoc.mpr (.inl hl), hlid, ?_⟩
  intro k c hk hid
  rcases grantAt_snoc.mp hk with hk | ⟨-, hg⟩
  · exact hall k c hk hid
  · exact absurd ⟨c, hg, hid⟩ hn

/-- A grant for the team becomes the last one. -/
theorem Granted.snoc {bot : Bot σ τ δ} {requests : List (Time.Instant × Request)}
    {w : World σ τ δ} {id : Team.Id} {first last : Team.Credentials}
    (h : bot.Granted requests w id first last) {now : Time.Instant} {r : Request}
    {c : Team.Credentials} (hg : bot.Grants now r (bot.run requests w).2 c) (hid : c.team = id) :
    bot.Granted (requests ++ [(now, r)]) w id first c := by
  obtain ⟨n, m, hf, hfid, -, -, hall⟩ := h
  refine ⟨n, requests.length, grantAt_snoc.mpr (.inl hf), hfid, grantAt_snoc.mpr (.inr ⟨rfl, hg⟩),
    hid, ?_⟩
  intro k c' hk hid'
  rcases grantAt_snoc.mp hk with hk | ⟨rfl, -⟩
  · exact ⟨(hall k c' hk hid').1, Nat.le_of_lt hk.lt_length⟩
  · exact ⟨Nat.le_of_lt hf.lt_length, Nat.le_refl _⟩

/-- The first grant for a team is the last one, too. -/
theorem Granted.single {bot : Bot σ τ δ} {requests : List (Time.Instant × Request)}
    {w : World σ τ δ} {id : Team.Id} (hn : ¬ bot.GrantsTo requests w id) {now : Time.Instant}
    {r : Request} {c : Team.Credentials} (hg : bot.Grants now r (bot.run requests w).2 c)
    (hid : c.team = id) : bot.Granted (requests ++ [(now, r)]) w id c c := by
  refine ⟨requests.length, requests.length, grantAt_snoc.mpr (.inr ⟨rfl, hg⟩), hid,
    grantAt_snoc.mpr (.inr ⟨rfl, hg⟩), hid, ?_⟩
  intro k c' hk hid'
  rcases grantAt_snoc.mp hk with hk | ⟨rfl, -⟩
  · exact absurd ⟨k, c', hk, hid'⟩ hn
  · exact ⟨Nat.le_refl _, Nat.le_refl _⟩

theorem KeptFor.snoc_other {bot : Bot σ τ δ} {requests : List (Time.Instant × Request)}
    {w : World σ τ δ} {rows rows' : List Team.Credentials} {id : Team.Id}
    (h : bot.KeptFor requests w rows id) {now : Time.Instant} {r : Request}
    (hn : ¬ ∃ c, bot.Grants now r (bot.run requests w).2 c ∧ c.team = id)
    (hf : Team.Memory.find id rows' = Team.Memory.find id rows) :
    bot.KeptFor (requests ++ [(now, r)]) w rows' id := by
  cases h with
  | nothing hnone hf' =>
    refine .nothing ?_ (hf.trans hf')
    rintro ⟨k, c, hk, hid⟩
    rcases grantAt_snoc.mp hk with hk | ⟨-, hg⟩
    · exact hnone ⟨k, c, hk, hid⟩
    · exact hn ⟨c, hg, hid⟩
  | granted hg hf' => exact .granted (hg.snoc_other hn) (hf.trans hf')

theorem KeptFor.snoc_grant {bot : Bot σ τ δ} {requests : List (Time.Instant × Request)}
    {w : World σ τ δ} {rows : List Team.Credentials} {id : Team.Id}
    (h : bot.KeptFor requests w rows id) {now : Time.Instant} {r : Request}
    {c : Team.Credentials} (hg : bot.Grants now r (bot.run requests w).2 c) (hid : c.team = id) :
    bot.KeptFor (requests ++ [(now, r)]) w (Team.Memory.save c rows).2 id := by
  subst hid
  have hsave := Team.Memory.find_save c rows c.team
  rw [if_pos rfl] at hsave
  cases h with
  | nothing hn hf =>
    rw [hf] at hsave
    exact .granted (.single hn hg rfl) hsave
  | granted hgr hf =>
    rw [hf] at hsave
    exact .granted (hgr.snoc hg rfl) hsave

/-- A run from an empty store, at times that the store can write: the store holds, for every team,
what the run got granted for it. -/
theorem run_kept {bot : Bot σ Team.Repository δ} (hs : bot.store = Team.Repository.store)
    {w : World σ Team.Repository δ} (hw : w.teams.Fresh)
    (requests : List (Time.Instant × Request)) (ht : ∀ x ∈ requests, w.teams.Writes x.1) :
    ∃ rows, (bot.run requests w).2.teams.Holds rows ∧
      (∀ t, (bot.run requests w).2.teams.Writes t ↔ w.teams.Writes t) ∧
      ∀ id, bot.KeptFor requests w rows id := by
  induction requests using List.reverseRecOn with
  | nil =>
    refine ⟨[], hw.holds, fun _ => Iff.rfl, ?_⟩
    intro id
    refine .nothing ?_ rfl
    rintro ⟨n, c, h, -⟩
    exact Nat.not_lt_zero n h.lt_length
  | append_singleton requests x ih =>
    obtain ⟨now, r⟩ := x
    obtain ⟨rows, hh, hwrites, hk⟩ := ih fun x hx => ht x (List.mem_append_left _ hx)
    rw [run_snoc]
    by_cases hg : ∃ c, bot.Grants now r (bot.run requests w).2 c
    · obtain ⟨c, hg⟩ := hg
      have hnow : (bot.run requests w).2.teams.Writes now :=
        (hwrites now).mpr (ht (now, r) (List.mem_append_right _ List.mem_cons_self))
      obtain ⟨hadded, hupdated⟩ := hg.times
      obtain ⟨-, hh'⟩ := hh.save (hadded ▸ hnow) (hupdated ▸ hnow)
      rw [hg.teams_eq, hs]
      refine ⟨_, hh', fun t => (Team.Repository.writes_save _ c t).trans (hwrites t), ?_⟩
      intro id
      by_cases hid : c.team = id
      · exact (hk id).snoc_grant hg hid
      · refine (hk id).snoc_other ?_ ?_
        · rintro ⟨c', hg', hid'⟩
          cases hg.unique hg'
          exact hid hid'
        · rw [Team.Memory.find_save, if_neg hid]
    · rw [respond_teams_eq hg]
      refine ⟨rows, hh, hwrites, ?_⟩
      intro id
      refine (hk id).snoc_other ?_ rfl
      rintro ⟨c, hc, -⟩
      exact hg ⟨c, hc⟩

theorem Granted.grantsTo {bot : Bot σ τ δ} {requests : List (Time.Instant × Request)}
    {w : World σ τ δ} {id : Team.Id} {first last : Team.Credentials}
    (h : bot.Granted requests w id first last) : bot.GrantsTo requests w id := by
  obtain ⟨n, m, hf, hid, -⟩ := h
  exact ⟨n, first, hf, hid⟩

theorem GrantAt.unique {bot : Bot σ τ δ} {requests : List (Time.Instant × Request)}
    {w : World σ τ δ} {n : Nat} {c c' : Team.Credentials} (h : bot.GrantAt requests w n c)
    (h' : bot.GrantAt requests w n c') : c = c' := by
  obtain ⟨now, r, hn, hg⟩ := h
  obtain ⟨now', r', hn', hg'⟩ := h'
  cases hn.symm.trans hn'
  exact hg.unique hg'

/-- There is one first grant for a team and one last one. -/
theorem Granted.unique {bot : Bot σ τ δ} {requests : List (Time.Instant × Request)}
    {w : World σ τ δ} {id : Team.Id} {first last first' last' : Team.Credentials}
    (h : bot.Granted requests w id first last) (h' : bot.Granted requests w id first' last') :
    first = first' ∧ last = last' := by
  obtain ⟨n, m, hf, hfid, hl, hlid, hall⟩ := h
  obtain ⟨n', m', hf', hfid', hl', hlid', hall'⟩ := h'
  have hn : n = n' :=
    Nat.le_antisymm (hall n' first' hf' hfid').1 (hall' n first hf hfid).1
  have hm : m = m' :=
    Nat.le_antisymm (hall' m last hl hlid).2 (hall m' last' hl' hlid').2
  subst hn hm
  exact ⟨hf.unique hf', hl.unique hl'⟩

/-- What a command asks of Slack concerns the credentials that the store has for its team. -/
theorem Commands.calls_cases {bot : Bot σ τ δ} {r : Request} {p : Slack.Payload}
    (h : bot.Commands r p) {id : Team.Id} (hid : Team.Id.parse p.teamId = .ok id)
    (now : Time.Instant) (w : World σ τ δ) :
    (bot.respond now r w).2.1.calls = [] ∨ ∃ team message,
      bot.store.find id w.teams = .ok (some team) ∧
      (bot.respond now r w).2.1.calls <+: [.authTest team.token, .authTest team.botToken,
        .postMessage team.botToken message] := by
  rw [h.respond_eq]
  rcases (answerPayload_end bot p Fault.unassigned w).calls_cases with
    hc | ⟨id', team, message, hid', hf, hc⟩
  · exact .inl hc
  · cases hid.symm.trans hid'
    exact .inr ⟨team, message, hf, hc⟩

/-- After any run from an empty store a team is stored exactly if the run got credentials granted
for it, with the tokens of the last grant and the time of the first. A command for the team asks
Slack about these tokens only, and about none without a grant. Whatever is no grant for the team
leaves all this as it is. -/
theorem credentials_provenance (bot : Bot σ Team.Repository δ)
    (hs : bot.store = Team.Repository.store) (w : World σ Team.Repository δ) (hw : w.teams.Fresh)
    (requests : List (Time.Instant × Request)) (ht : ∀ x ∈ requests, w.teams.Writes x.1)
    (id : Team.Id) :
    let after := (bot.run requests w).2
    ((∃ c, bot.store.find id after.teams = .ok (some c)) ↔ bot.GrantsTo requests w id) ∧
    (¬ bot.GrantsTo requests w id → bot.store.find id after.teams = .ok none) ∧
    (∀ c, bot.store.find id after.teams = .ok (some c) → ∃ first last,
      bot.Granted requests w id first last ∧ c = { last with addedAt := first.addedAt }) ∧
    (∀ now r p, bot.Commands r p → Team.Id.parse p.teamId = .ok id →
      let answer := bot.respond now r after
      answer.2.2.slack = bot.slack.after answer.2.1.calls after.slack ∧
      (¬ bot.GrantsTo requests w id → answer.2.1.calls = []) ∧
      ∀ first last, bot.Granted requests w id first last → ∃ message,
        answer.2.1.calls <+: [.authTest last.token, .authTest last.botToken,
          .postMessage last.botToken message]) ∧
    ∀ now r, w.teams.Writes now → (¬ ∃ c, bot.Grants now r after c ∧ c.team = id) →
      bot.store.find id (bot.respond now r after).2.2.teams = bot.store.find id after.teams := by
  intro after
  obtain ⟨rows, hh, hwrites, hkept⟩ := run_kept hs hw requests ht
  have hfind : bot.store.find id after.teams = .ok (Team.Memory.find id rows) := by
    rw [hs]
    exact hh.find_eq id
  have hnone (hn : ¬ bot.GrantsTo requests w id) : bot.store.find id after.teams = .ok none := by
    cases hkept id with
    | nothing _ hf => rw [hfind, hf]
    | granted hg _ => exact absurd hg.grantsTo hn
  have hsome {c : Team.Credentials} (hc : bot.store.find id after.teams = .ok (some c)) :
      ∃ first last, bot.Granted requests w id first last ∧
        c = { last with addedAt := first.addedAt } := by
    cases hkept id with
    | nothing _ hf =>
      rw [hfind, hf] at hc
      cases hc
    | granted hg hf =>
      rw [hfind, hf] at hc
      cases hc
      exact ⟨_, _, hg, rfl⟩
  refine ⟨⟨?_, ?_⟩, hnone, fun c => hsome, ?_, ?_⟩
  · rintro ⟨c, hc⟩
    obtain ⟨first, last, hg, -⟩ := hsome hc
    exact hg.grantsTo
  · intro hg
    cases hkept id with
    | nothing hn _ => exact absurd hg hn
    | granted _ hf => exact ⟨_, hfind.trans (congrArg Except.ok hf)⟩
  · intro now r p hp hid answer
    refine ⟨?_, ?_, ?_⟩
    · change (bot.respond now r after).2.2.slack = _
      simp only [answer, hp.respond_eq]
      exact (answerPayload_end bot p Fault.unassigned after).slack_eq
    · intro hn
      rcases hp.calls_cases hid now after with hc | ⟨team, message, hf, -⟩
      · exact hc
      · cases (hnone hn).symm.trans hf
    · intro first last hg
      rcases hp.calls_cases hid now after with hc | ⟨team, message, hf, hc⟩
      · exact ⟨⟨"", "", "", ""⟩, hc ▸ List.nil_prefix⟩
      · obtain ⟨first', last', hg', rfl⟩ := hsome hf
        obtain ⟨-, rfl⟩ := hg.unique hg'
        exact ⟨message, hc⟩
  · intro now r hnow hn
    by_cases hg : ∃ c, bot.Grants now r after c
    · obtain ⟨c, hg⟩ := hg
      have hid : ¬ c.team = id := fun hid => hn ⟨c, hg, hid⟩
      obtain ⟨hadded, hupdated⟩ := hg.times
      have hnow' := (hwrites now).mpr hnow
      obtain ⟨-, hh'⟩ := hh.save (hadded ▸ hnow') (hupdated ▸ hnow')
      rw [hg.teams_eq, hfind, hs, hh'.find_eq id, Team.Memory.find_save, if_neg hid]
    · rw [respond_teams_eq hg]

/-- A callback five seconds after the token was issued, and what a database keeps of it. -/
theorem credentials_provenance_generous :
    let key := Team.SealKey.ofPassphrase "passphrase"
    let vault : Team.Vault := ⟨Database.State.new.migrate.2, key, fun _ => List.replicate 12 0, 0⟩
    let w : World Unit Team.Repository Unit := ⟨(), .vault vault, ()⟩
    let bot := generous ⟨"xoxp", " T1 ", "B1", "xoxb"⟩
    let state := "0.028dc0b2ce7a4b59680e823a9b2381400720b4a2c5292f9f2f3b0b80efb8a9ac"
    let requests : List (Time.Instant × Request) :=
      [(⟨5, 0⟩, ⟨"GET", "/validate", "state=" ++ state ++ "&code=c", none, ""⟩)]
    (w.teams.Fresh ∧ ∀ x ∈ requests, w.teams.Writes x.1) ∧
    bot.store.find ⟨"T1"⟩ (bot.run requests w).2.teams =
      .ok (some ⟨⟨"T1"⟩, "xoxp", "B1", "xoxb", ⟨5, 0⟩, ⟨5, 0⟩⟩) := by
  intro key vault w bot state requests
  have hw : w.teams.Fresh := .vault rfl ⟨"passphrase", rfl⟩ fun _ => rfl
  have ht : ∀ x ∈ requests, w.teams.Writes x.1 := by
    intro x hx
    cases List.mem_singleton.mp hx
    exact ⟨by decide +kernel, by decide +kernel, .inl (by decide)⟩
  refine ⟨⟨hw, ht⟩, ?_⟩
  have hgrant : bot.GrantAt requests w 0 ⟨⟨"T1"⟩, "xoxp", "B1", "xoxb", ⟨5, 0⟩, ⟨5, 0⟩⟩ := by
    refine ⟨_, _, rfl, by decide +kernel, ⟨some state, some "c", none⟩,
      by decide +kernel, "c", _, ⟨"T1"⟩, ⟨state, ⟨0, 0⟩, ⟨rfl, by decide, rfl, by decide⟩, ?_⟩, rfl,
      rfl, rfl⟩
    decide +kernel
  obtain ⟨hiff, -, hsome, -⟩ := credentials_provenance bot rfl w hw requests ht ⟨"T1"⟩
  obtain ⟨c, hc⟩ := hiff.mpr ⟨0, _, hgrant, rfl⟩
  obtain ⟨first, last, ⟨n, m, hf, -, hl, -⟩, rfl⟩ := hsome c hc
  have hn : n = 0 := Nat.lt_one_iff.mp hf.lt_length
  have hm : m = 0 := Nat.lt_one_iff.mp hl.lt_length
  subst hn hm
  rw [hc, hf.unique hgrant, hl.unique hgrant]

end Bot
end DiceBot.Server
