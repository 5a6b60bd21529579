import DiceBot.Proofs.Roll.Reply
import DiceBot.Proofs.Slack.Calls
import DiceBot.Server.Bot

/-!
Who may post with the slash command: the ways in which a command ends, with what Slack is asked in
each of them. A roll is posted once, with checked tokens, or not at all.
-/

namespace DiceBot.Server

open Slack (Payload Call Vouches checks)
open Roll (Asks)

variable {σ τ δ : Type}

/-- The name that a roll shows: that of the user, or a mention of the user when it is blank. -/
def shownName (p : Payload) : String :=
  if Text.isAllBlank p.userName then "<@" ++ p.userId ++ ">" else p.userName

namespace Bot

/-- A payload for the bot: it gives an allowed command and the id of a team. -/
structure Addressed (bot : Bot σ τ δ) (p : Payload) (id : Team.Id) : Prop where
  allowed : Text.strip p.command ∈ bot.settings.allowedCommands
  team : Team.Id.parse p.teamId = .ok id

theorem Addressed.unique {bot : Bot σ τ δ} {p : Payload} {id id' : Team.Id}
    (h : bot.Addressed p id) (h' : bot.Addressed p id') : id = id' := by
  cases h.team.symm.trans h'.team
  rfl

/-- A lookup for a payload has one outcome. -/
theorem Addressed.lookup_unique {bot : Bot σ τ δ} {p : Payload} {id id' : Team.Id} {teams : τ}
    {found found' : Except Team.StoreError (Option Team.Credentials)} (h : bot.Addressed p id)
    (hf : bot.store.find id teams = found) (h' : bot.Addressed p id')
    (hf' : bot.store.find id' teams = found') : found = found' := by
  cases h.unique h'
  exact hf.symm.trans hf'

/-- The message that tells the channel of the payload about a roll. -/
def rollMessage (bot : Bot σ τ δ) (p : Payload) (w : World σ τ δ) (r : Roll.Request) :
    Slack.Message :=
  ⟨p.channelId, Roll.message r (shownName p) (r.evaluate bot.dice w.dice).1,
    bot.settings.botUsername, bot.settings.botIcon⟩

/-- The condition for a post. -/
structure MayPost (bot : Bot σ τ δ) (p : Payload) (w : World σ τ δ) (team : Team.Credentials)
    (r : Roll.Request) : Prop where
  found : ∃ id, bot.Addressed p id ∧ bot.store.find id w.teams = .ok (some team)
  vouched : Vouches bot.slack team w.slack
  asked : Asks p.text r

/-- The answer of Slack to a post that comes after both checks. -/
def posted (bot : Bot σ τ δ) (p : Payload) (w : World σ τ δ) (team : Team.Credentials)
    (r : Roll.Request) : Except Slack.ApiError Unit :=
  (bot.slack.postMessage team.botToken (bot.rollMessage p w r)
    (bot.slack.after (checks team) w.slack)).1

/-- How a command ends, with what was asked of Slack and the world after it. -/
inductive CommandEnd (bot : Bot σ τ δ) (p : Payload) (w : World σ τ δ) : Answer σ τ δ → Prop where
  | notAddressed {said trace} (hn : ¬ ∃ id, bot.Addressed p id) (hc : trace.calls = []) :
      CommandEnd bot p w (.text 200 said, trace, w)
  | lookupFailed {id error said trace} (ha : bot.Addressed p id)
      (hf : bot.store.find id w.teams = .error error) (hc : trace.calls = []) :
      CommandEnd bot p w (.text 503 said, trace, w)
  | unknownTeam {id said trace} (ha : bot.Addressed p id)
      (hf : bot.store.find id w.teams = .ok none) (hc : trace.calls = []) :
      CommandEnd bot p w (.text 200 said, trace, w)
  | notVouched {id team said trace} (ha : bot.Addressed p id)
      (hf : bot.store.find id w.teams = .ok (some team))
      (hv : ¬ Vouches bot.slack team w.slack) (hc : trace.calls <+: checks team) :
      CommandEnd bot p w
        (.text 200 said, trace, ⟨bot.slack.after trace.calls w.slack, w.teams, w.dice⟩)
  | privateReply {id team said trace} (ha : bot.Addressed p id)
      (hf : bot.store.find id w.teams = .ok (some team))
      (hv : Vouches bot.slack team w.slack) (hr : ¬ ∃ r, Asks p.text r)
      (hc : trace.calls = checks team) :
      CommandEnd bot p w
        (.text 200 said, trace, ⟨bot.slack.after trace.calls w.slack, w.teams, w.dice⟩)
  | delivered {team r trace dice} (hm : bot.MayPost p w team r)
      (hp : bot.posted p w team r = .ok ())
      (hc : trace.calls = checks team ++ [.postMessage team.botToken (bot.rollMessage p w r)]) :
      CommandEnd bot p w (.empty 204, trace, ⟨bot.slack.after trace.calls w.slack, w.teams, dice⟩)
  | notDelivered {team r said trace dice} (hm : bot.MayPost p w team r)
      (hp : bot.posted p w team r ≠ .ok ())
      (hc : trace.calls = checks team ++ [.postMessage team.botToken (bot.rollMessage p w r)]) :
      CommandEnd bot p w
        (.text 200 said, trace, ⟨bot.slack.after trace.calls w.slack, w.teams, dice⟩)

/-- The command that the bot takes from a payload for it. -/
def commandOf (p : Payload) (id : Team.Id) (requestId : String) : Slack.Command :=
  ⟨Text.strip p.command, Text.strip p.text, id, p.channelId, p.userId, p.userName, requestId⟩

theorem command?_of_addressed {bot : Bot σ τ δ} {p : Payload} {id : Team.Id}
    (h : bot.Addressed p id) (requestId : String) :
    p.command? bot.settings.allowedCommands requestId =
      .ok (commandOf p id requestId) := by
  simp only [commandOf, Payload.command?, List.contains_iff_mem.mpr h.allowed, h.team, if_true]

theorem command?_of_not_addressed {bot : Bot σ τ δ} {p : Payload}
    (h : ¬ ∃ id, bot.Addressed p id) (requestId : String) :
    ∃ error, p.command? bot.settings.allowedCommands requestId = .error error := by
  unfold Payload.command?
  dsimp only
  split
  · next hc =>
    split
    · next id ht => exact absurd ⟨id, List.contains_iff_mem.mp hc, ht⟩ h
    · exact ⟨_, rfl⟩
  · exact ⟨_, rfl⟩

/-- A text that asks for no roll is answered in private, and Slack is not asked anything. -/
theorem answerRoll_private (bot : Bot σ τ δ) {c : Slack.Command} (team : Team.Credentials)
    (w : World σ τ δ) (h : ¬ ∃ r, Asks c.text r) :
    ∃ said trace, trace.calls = [] ∧ bot.answerRoll c team w = (.text 200 said, trace, w) := by
  obtain ⟨said, hs, he⟩ := Roll.reply_of_not_asks h c.displayName
    ⟨bot.settings.nameFull, botVersion, c.command⟩ bot.dice w.dice
  simp only [answerRoll, he]
  cases said with
  | rolled text => cases hs
  | help text => exact ⟨text, .empty, rfl, rfl⟩
  | version text => exact ⟨text, .empty, rfl, rfl⟩
  | rejected text => exact ⟨text, .info "roll.invalid", rfl, rfl⟩

/-- A roll is posted once, and the answer tells whether Slack took it. -/
theorem answerRoll_post (bot : Bot σ τ δ) {c : Slack.Command} (team : Team.Credentials)
    (w : World σ τ δ) {r : Roll.Request} (h : Asks c.text r) :
    let message : Slack.Message := ⟨c.channelId,
      Roll.message r c.displayName (r.evaluate bot.dice w.dice).1,
      bot.settings.botUsername, bot.settings.botIcon⟩
    let answer := (bot.slack.postMessage team.botToken message w.slack).1
    let slack := bot.slack.after [.postMessage team.botToken message] w.slack
    let dice := (r.evaluate bot.dice w.dice).2
    ∃ trace, trace.calls = [.postMessage team.botToken message] ∧
      ((answer = .ok () ∧
        bot.answerRoll c team w = (.empty 204, trace, ⟨slack, w.teams, dice⟩)) ∨
      (answer ≠ .ok () ∧
        ∃ said, bot.answerRoll c team w = (.text 200 said, trace, ⟨slack, w.teams, dice⟩))) := by
  dsimp only
  obtain ⟨hc, hs, ha⟩ := Slack.deliver_eq bot.slack team c.channelId
    (Roll.message r c.displayName (r.evaluate bot.dice w.dice).1)
    ⟨bot.settings.botUsername, bot.settings.botIcon⟩ w.slack
  simp only [answerRoll, Roll.reply_of_asks h]
  cases hd : Slack.deliver bot.slack team c.channelId
      (Roll.message r c.displayName (r.evaluate bot.dice w.dice).1)
      ⟨bot.settings.botUsername, bot.settings.botIcon⟩ w.slack with
  | mk answer after =>
  obtain ⟨trace, slack⟩ := after
  rw [hd] at hc hs ha
  dsimp only at hc hs ha
  rw [← hs]
  cases answer with
  | ok done => exact ⟨trace, hc, .inl ⟨ha.mp rfl, rfl⟩⟩
  | error e =>
    refine ⟨trace ++ .warn "slack.command.delivery_failed", by simp [hc], .inr ⟨?_, _, rfl⟩⟩
    intro hp
    cases ha.mpr hp

/-- A command of a team whose tokens hold ends with a private reply or with one post. -/
theorem answerRoll_end {bot : Bot σ τ δ} {p : Payload} {id : Team.Id} {w : World σ τ δ}
    {team : Team.Credentials} (ha : bot.Addressed p id)
    (hf : bot.store.find id w.teams = .ok (some team)) (hv : Vouches bot.slack team w.slack)
    {requestId : String} {before after : Slack.Trace} (hb : before.calls = checks team)
    {response : Web.Response} {w' : World σ τ δ}
    (h : bot.answerRoll (commandOf p id requestId) team
      ⟨bot.slack.after before.calls w.slack, w.teams, w.dice⟩ = (response, after, w')) :
    bot.CommandEnd p w (response, before ++ after, w') := by
  have hslack (trace : Slack.Trace) :
      bot.slack.after trace.calls (bot.slack.after before.calls w.slack) =
        bot.slack.after (before ++ trace).calls w.slack := by
    rw [Slack.Trace.append_calls, Slack.Api.after_append]
  by_cases hr : ∃ r, Asks p.text r
  · obtain ⟨r, hr⟩ := hr
    have hm : bot.MayPost p w team r := ⟨⟨id, ha, hf⟩, hv, hr⟩
    obtain ⟨trace, ht, hp⟩ := answerRoll_post bot (c := commandOf p id requestId) team
      ⟨bot.slack.after before.calls w.slack, w.teams, w.dice⟩ (Roll.asks_strip.mpr hr)
    have hc : (before ++ trace).calls =
        checks team ++ [.postMessage team.botToken (bot.rollMessage p w r)] := by
      rw [Slack.Trace.append_calls, hb, ht]
      rfl
    rw [← ht, hslack] at hp
    rcases hp with ⟨hok, he⟩ | ⟨hno, said, he⟩
    · cases h.symm.trans he
      rw [hb] at hok
      exact .delivered hm hok hc
    · cases h.symm.trans he
      rw [hb] at hno
      exact .notDelivered hm hno hc
  · have hn : ¬ ∃ r, Asks (commandOf p id requestId).text r := by
      rintro ⟨r, h⟩
      exact hr ⟨r, Roll.asks_strip.mp h⟩
    obtain ⟨said, trace, ht, he⟩ := answerRoll_private bot team
      ⟨bot.slack.after before.calls w.slack, w.teams, w.dice⟩ hn
    have hc : (before ++ trace).calls = checks team := by simp [hb, ht]
    have hs := hslack trace
    rw [ht, Slack.Api.after_nil] at hs
    cases h.symm.trans he
    rw [hs]
    exact .privateReply ha hf hv hr hc

theorem answerCommand_end {bot : Bot σ τ δ} {p : Payload} {id : Team.Id} {w : World σ τ δ}
    (ha : bot.Addressed p id) (requestId : String) {before : Slack.Trace} (hb : before.calls = []) :
    let a := bot.answerCommand (commandOf p id requestId) w
    bot.CommandEnd p w (a.1, before ++ a.2.1, a.2.2) := by
  unfold answerCommand
  rw [show (commandOf p id requestId).team = id from rfl]
  cases hf : bot.store.find id w.teams with
  | error e => exact .lookupFailed ha hf (by simp [hb])
  | ok found =>
  cases found with
  | none => exact .unknownTeam ha hf (by simp [hb])
  | some team =>
    have hvc := Slack.credentialsValid_calls bot.slack team w.slack
    have hvs := Slack.credentialsValid_state bot.slack team w.slack
    have hvi := Slack.credentialsValid_iff bot.slack team w.slack
    have hva := fun h : Vouches bot.slack team w.slack => h.calls
    rcases hv : Slack.credentialsValid bot.slack team w.slack with ⟨valid, tried, slack⟩
    rw [hv] at hvc hvs hvi hva
    dsimp only at hvc hvs hvi hva
    subst hvs
    cases valid with
    | false =>
      have hn : ¬ Vouches bot.slack team w.slack := fun h => by cases hvi.mpr h
      have hc : (before ++ (tried ++ Slack.Trace.warn "slack.command.auth_error")).calls =
          tried.calls := by simp [hb]
      simp only [hv, Bool.false_eq_true, if_false]
      rw [← hc] at hvc ⊢
      exact .notVouched ha hf hn hvc
    | true =>
      have hy : Vouches bot.slack team w.slack := hvi.mp rfl
      have hc : (before ++ tried).calls = checks team := by simp [hb, hva hy]
      have hs : bot.slack.after tried.calls w.slack =
          bot.slack.after (before ++ tried).calls w.slack := by simp [hb]
      rw [hs] at hv
      rcases hr : bot.answerRoll (commandOf p id requestId) team
        ⟨bot.slack.after (before ++ tried).calls w.slack, w.teams, w.dice⟩ with
        ⟨response, trace, after⟩
      simp only [hv, hr, if_true]
      rw [← Slack.Trace.append_assoc]
      exact answerRoll_end ha hf hy hc hr

/-- Every payload ends in one of these ways. -/
theorem answerPayload_end (bot : Bot σ τ δ) (p : Payload) (requestId : String)
    (w : World σ τ δ) : bot.CommandEnd p w (bot.answerPayload p requestId w) := by
  unfold answerPayload
  by_cases ha : ∃ id, bot.Addressed p id
  · obtain ⟨id, ha⟩ := ha
    simp only [command?_of_addressed ha]
    exact answerCommand_end ha requestId rfl
  · obtain ⟨error, he⟩ := command?_of_not_addressed ha requestId
    simp only [he]
    exact .notAddressed ha rfl

namespace CommandEnd

variable {bot : Bot σ τ δ} {p : Payload} {w : World σ τ δ} {a : Answer σ τ δ}

theorem teams_eq (h : bot.CommandEnd p w a) : a.2.2.teams = w.teams := by
  cases h <;> rfl

/-- Slack was asked what the trace says and nothing else. -/
theorem slack_eq (h : bot.CommandEnd p w a) :
    a.2.2.slack = bot.slack.after a.2.1.calls w.slack := by
  cases h with
  | notAddressed hn hc => simp [hc]
  | lookupFailed ha hf hc => simp [hc]
  | unknownTeam ha hf hc => simp [hc]
  | notVouched ha hf hv hc => rfl
  | privateReply ha hf hv hr hc => rfl
  | delivered hm hp hc => rfl
  | notDelivered hm hp hc => rfl

/-- Whatever is asked of Slack concerns the credentials that are stored for the payload's team. -/
theorem calls_cases (h : bot.CommandEnd p w a) :
    a.2.1.calls = [] ∨ ∃ id team message, Team.Id.parse p.teamId = .ok id ∧
      bot.store.find id w.teams = .ok (some team) ∧
      a.2.1.calls <+: checks team ++ [.postMessage team.botToken message] := by
  cases h with
  | notAddressed hn hc => exact .inl hc
  | lookupFailed ha hf hc => exact .inl hc
  | unknownTeam ha hf hc => exact .inl hc
  | @notVouched id team _ _ ha hf hv hc =>
    exact .inr ⟨id, team, bot.rollMessage p w .single, ha.team, hf,
      hc.trans (List.prefix_append _ _)⟩
  | @privateReply id team _ _ ha hf hv hr hc =>
    refine .inr ⟨id, team, bot.rollMessage p w .single, ha.team, hf, ?_⟩
    rw [hc]
    exact List.prefix_append _ _
  | @delivered team r _ _ hm hp hc =>
    obtain ⟨id, ha, hf⟩ := hm.found
    exact .inr ⟨id, team, bot.rollMessage p w r, ha.team, hf, hc ▸ List.prefix_rfl⟩
  | @notDelivered team r _ _ _ hm hp hc =>
    obtain ⟨id, ha, hf⟩ := hm.found
    exact .inr ⟨id, team, bot.rollMessage p w r, ha.team, hf, hc ▸ List.prefix_rfl⟩

/-- A post is made under its condition only. -/
theorem mayPost_of_mem (h : bot.CommandEnd p w a) {token : String} {message : Slack.Message}
    (hmem : .postMessage token message ∈ a.2.1.calls) : ∃ team r, bot.MayPost p w team r := by
  have hcheck (team : Team.Credentials) : Call.postMessage token message ∉ checks team := by
    simp [checks]
  cases h with
  | notAddressed hn hc => simp [hc] at hmem
  | lookupFailed ha hf hc => simp [hc] at hmem
  | unknownTeam ha hf hc => simp [hc] at hmem
  | notVouched ha hf hv hc => exact absurd (hc.subset hmem) (hcheck _)
  | privateReply ha hf hv hr hc => exact absurd (hc ▸ hmem) (hcheck _)
  | delivered hm hp hc => exact ⟨_, _, hm⟩
  | notDelivered hm hp hc => exact ⟨_, _, hm⟩

end CommandEnd

theorem MayPost.unique {bot : Bot σ τ δ} {p : Payload} {w : World σ τ δ}
    {team team' : Team.Credentials} {r r' : Roll.Request}
    (h : bot.MayPost p w team r) (h' : bot.MayPost p w team' r') : team = team' ∧ r = r' := by
  obtain ⟨id, ha, hf⟩ := h.found
  obtain ⟨id', ha', hf'⟩ := h'.found
  cases ha.lookup_unique hf ha' hf'
  exact ⟨rfl, h.asked.unique h'.asked⟩

/-- Under the condition for a post there is one, after both checks, and the response tells whether
Slack took it. -/
theorem CommandEnd.of_mayPost {bot : Bot σ τ δ} {p : Payload} {w : World σ τ δ}
    {a : Answer σ τ δ} (h : bot.CommandEnd p w a) {team : Team.Credentials} {r : Roll.Request}
    (hm : bot.MayPost p w team r) :
    a.2.1.calls = checks team ++ [.postMessage team.botToken (bot.rollMessage p w r)] ∧
    ((bot.posted p w team r = .ok () ∧ a.1 = .empty 204) ∨
      (bot.posted p w team r ≠ .ok () ∧ ∃ said, a.1 = .text 200 said)) := by
  obtain ⟨id, ha, hf⟩ := hm.found
  cases h with
  | notAddressed hn hc => exact absurd ⟨id, ha⟩ hn
  | lookupFailed ha' hf' hc => cases ha.lookup_unique hf ha' hf'
  | unknownTeam ha' hf' hc => cases ha.lookup_unique hf ha' hf'
  | notVouched ha' hf' hv hc =>
    cases ha.lookup_unique hf ha' hf'
    exact absurd hm.vouched hv
  | privateReply ha' hf' hv hr hc => exact absurd ⟨r, hm.asked⟩ hr
  | delivered hm' hp hc =>
    obtain ⟨rfl, rfl⟩ := hm.unique hm'
    exact ⟨hc, .inl ⟨hp, rfl⟩⟩
  | notDelivered hm' hp hc =>
    obtain ⟨rfl, rfl⟩ := hm.unique hm'
    exact ⟨hc, .inr ⟨hp, _, rfl⟩⟩

theorem CommandEnd.of_lookupFailed {bot : Bot σ τ δ} {p : Payload} {w : World σ τ δ}
    {a : Answer σ τ δ} (h : bot.CommandEnd p w a) {id : Team.Id} {error : Team.StoreError}
    (ha : bot.Addressed p id) (hf : bot.store.find id w.teams = .error error) :
    ∃ said, a.1 = .text 503 said := by
  have hfound {team : Team.Credentials} {r : Roll.Request} (hm : bot.MayPost p w team r) : False := by
    obtain ⟨id', ha', hf'⟩ := hm.found
    cases ha.lookup_unique hf ha' hf'
  cases h with
  | notAddressed hn hc => exact absurd ⟨id, ha⟩ hn
  | lookupFailed ha' hf' hc => exact ⟨_, rfl⟩
  | unknownTeam ha' hf' hc => cases ha.lookup_unique hf ha' hf'
  | notVouched ha' hf' hv hc => cases ha.lookup_unique hf ha' hf'
  | privateReply ha' hf' hv hr hc => cases ha.lookup_unique hf ha' hf'
  | delivered hm hp hc => exact (hfound hm).elim
  | notDelivered hm hp hc => exact (hfound hm).elim

/-- The response is `204` after a roll that Slack took, `503` after a failed lookup, and a text with
`200` after all else. -/
theorem CommandEnd.response_cases {bot : Bot σ τ δ} {p : Payload} {w : World σ τ δ}
    {a : Answer σ τ δ} (h : bot.CommandEnd p w a) :
    (a.1 = .empty 204 ∧ ∃ team r, bot.MayPost p w team r ∧ bot.posted p w team r = .ok ()) ∨
    ((∃ said, a.1 = .text 503 said) ∧
      ∃ id error, bot.Addressed p id ∧ bot.store.find id w.teams = .error error) ∨
    ∃ said, a.1 = .text 200 said := by
  cases h with
  | lookupFailed ha hf hc => exact .inr (.inl ⟨⟨_, rfl⟩, _, _, ha, hf⟩)
  | delivered hm hp hc => exact .inl ⟨rfl, _, _, hm, hp⟩
  | _ => exact .inr (.inr ⟨_, rfl⟩)

theorem CommandEnd.delivered_of_204 {bot : Bot σ τ δ} {p : Payload} {w : World σ τ δ}
    {a : Answer σ τ δ} (h : bot.CommandEnd p w a) (hs : a.1.status = 204) :
    a.1 = .empty 204 ∧ ∃ team r, bot.MayPost p w team r ∧ bot.posted p w team r = .ok () := by
  rcases h.response_cases with hd | ⟨⟨said, hr⟩, -⟩ | ⟨said, hr⟩
  · exact hd
  all_goals
    rw [hr] at hs
    cases hs

theorem CommandEnd.lookupFailed_of_503 {bot : Bot σ τ δ} {p : Payload} {w : World σ τ δ}
    {a : Answer σ τ δ} (h : bot.CommandEnd p w a) (hs : a.1.status = 503) :
    ∃ id error, bot.Addressed p id ∧ bot.store.find id w.teams = .error error := by
  rcases h.response_cases with ⟨hr, -⟩ | ⟨-, hf⟩ | ⟨said, hr⟩
  rotate_left
  · exact hf
  all_goals
    rw [hr] at hs
    cases hs

/-- Slack is asked about the stored tokens of the payload's team, first that of the user and then
that of the bot, and a roll is posted exactly when the command is allowed, the team is found, both
tokens hold and the text asks for a roll. The store stays as it is. -/
theorem command_gate (bot : Bot σ τ δ) (p : Payload) (requestId : String) (w : World σ τ δ) :
    let a := bot.answerPayload p requestId w
    let calls := a.2.1.calls
    (∀ id team, Team.Id.parse p.teamId = .ok id →
      bot.store.find id w.teams = .ok (some team) →
      ∃ message, calls <+: [.authTest team.token, .authTest team.botToken,
        .postMessage team.botToken message]) ∧
    ((¬ ∃ id team, Team.Id.parse p.teamId = .ok id ∧
      bot.store.find id w.teams = .ok (some team)) → calls = []) ∧
    a.2.2.slack = bot.slack.after calls w.slack ∧
    ((∃ token message, .postMessage token message ∈ calls) ↔ ∃ team r, bot.MayPost p w team r) ∧
    (∀ team r, bot.MayPost p w team r → calls = [.authTest team.token, .authTest team.botToken,
      .postMessage team.botToken ⟨p.channelId,
        Roll.message r (shownName p) (r.evaluate bot.dice w.dice).1,
        bot.settings.botUsername, bot.settings.botIcon⟩]) ∧
    (a.1.status = 204 ↔ ∃ team r, bot.MayPost p w team r ∧ bot.posted p w team r = .ok ()) ∧
    (a.1.status = 204 → a.1 = .empty 204) ∧
    (a.1.status = 503 ↔
      ∃ id error, bot.Addressed p id ∧ bot.store.find id w.teams = .error error) ∧
    (a.1.status ≠ 204 → a.1.status ≠ 503 → ∃ said, a.1 = .text 200 said) ∧
    a.2.2.teams = w.teams := by
  intro a calls
  have h : bot.CommandEnd p w a := answerPayload_end bot p requestId w
  refine ⟨?_, ?_, h.slack_eq, ⟨?_, ?_⟩, ?_, ⟨?_, ?_⟩, ?_, ⟨?_, ?_⟩, ?_, h.teams_eq⟩
  · intro id team hid hf
    rcases h.calls_cases with hc | ⟨id', team', message, hid', hf', hc⟩
    · exact ⟨bot.rollMessage p w .single, hc ▸ List.nil_prefix⟩
    · cases hid.symm.trans hid'
      cases hf.symm.trans hf'
      exact ⟨message, hc⟩
  · intro hn
    rcases h.calls_cases with hc | ⟨id, team, message, hid, hf, hc⟩
    · exact hc
    · exact absurd ⟨id, team, hid, hf⟩ hn
  · rintro ⟨token, message, hm⟩
    exact h.mayPost_of_mem hm
  · rintro ⟨team, r, hm⟩
    refine ⟨team.botToken, bot.rollMessage p w r, ?_⟩
    rw [show calls = _ from (h.of_mayPost hm).1]
    simp
  · intro team r hm
    exact (h.of_mayPost hm).1
  · exact fun hs => (h.delivered_of_204 hs).2
  · rintro ⟨team, r, hm, hp⟩
    rcases (h.of_mayPost hm).2 with ⟨-, hr⟩ | ⟨hp', -⟩
    · rw [hr]
      rfl
    · exact absurd hp hp'
  · exact fun hs => (h.delivered_of_204 hs).1
  · exact h.lookupFailed_of_503
  · rintro ⟨id, error, ha, hf⟩
    obtain ⟨said, hr⟩ := h.of_lookupFailed ha hf
    rw [hr]
    rfl
  · intro h204 h503
    rcases h.response_cases with ⟨hr, -⟩ | ⟨⟨said, hr⟩, -⟩ | hr
    · exact absurd (hr ▸ rfl) h204
    · exact absurd (hr ▸ rfl) h503
    · exact hr

end Bot
end DiceBot.Server
