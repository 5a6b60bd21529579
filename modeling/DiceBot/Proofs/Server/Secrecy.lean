import DiceBot.Proofs.Server.CallbackGate
import DiceBot.Proofs.Server.CommandGate
import DiceBot.Proofs.Server.Handshake
import DiceBot.Proofs.Slack.Answers
import DiceBot.Proofs.Team.Alike
import DiceBot.Server.Routes

/-!
Granted tokens do not show: two runs of the bot over the same requests, with Slacks whose answers
differ in the tokens that they grant and in nothing else, give the same responses.
-/

namespace DiceBot.Server

open Slack (Agree CallsAlike)
open Web (Request Response)

variable {σ σ' τ δ : Type}

/-- Worlds that differ in Slack and in stored tokens at most. -/
structure World.Alike (alike : τ → τ → Prop) (w : World σ τ δ) (w' : World σ' τ δ) : Prop where
  teams : alike w.teams w'.teams
  dice : w.dice = w'.dice

/-- Answers that differ in the tokens of calls and of stores at most. -/
structure Answer.Alike (alike : τ → τ → Prop) (a : Answer σ τ δ) (a' : Answer σ' τ δ) : Prop where
  response : a.1 = a'.1
  calls : CallsAlike a.2.1.calls a'.2.1.calls
  world : World.Alike alike a.2.2 a'.2.2

/-- An answer that asks nothing of Slack and leaves the world. -/
theorem Answer.alike_idle {alike : τ → τ → Prop} {w : World σ τ δ} {w' : World σ' τ δ}
    (hw : World.Alike alike w w') (response : Response) {trace trace' : Slack.Trace}
    (h : trace.calls = []) (h' : trace'.calls = []) :
    Answer.Alike alike (response, trace, w) (response, trace', w') := by
  refine ⟨rfl, ?_, hw⟩
  simp only [h, h']
  exact .nil

/-- More calls that are alike may come before. -/
theorem Answer.Alike.after {alike : τ → τ → Prop} {a : Answer σ τ δ} {a' : Answer σ' τ δ}
    (h : Answer.Alike alike a a') {before before' : Slack.Trace}
    (hb : CallsAlike before.calls before'.calls) :
    Answer.Alike alike (a.1, before ++ a.2.1, a.2.2) (a'.1, before' ++ a'.2.1, a'.2.2) :=
  ⟨h.response, hb.append h.calls, h.world⟩

namespace Bot

/-- The same bot with another Slack. -/
def withSlack (bot : Bot σ τ δ) (slack : Slack.Api σ') : Bot σ' τ δ :=
  ⟨bot.settings, slack, bot.store, bot.dice, bot.database⟩

@[simp] theorem withSlack_slack (bot : Bot σ τ δ) (slack : Slack.Api σ') :
    (bot.withSlack slack).slack = slack := rfl

@[simp] theorem withSlack_settings (bot : Bot σ τ δ) (slack : Slack.Api σ') :
    (bot.withSlack slack).settings = bot.settings := rfl

@[simp] theorem withSlack_store (bot : Bot σ τ δ) (slack : Slack.Api σ') :
    (bot.withSlack slack).store = bot.store := rfl

@[simp] theorem withSlack_database (bot : Bot σ τ δ) (slack : Slack.Api σ') :
    (bot.withSlack slack).database = bot.database := rfl

/-- A bot whose store and health do not tell states of a relation apart. -/
structure Blind (bot : Bot σ τ δ) (alike : τ → τ → Prop) : Prop where
  store : bot.store.Blind alike
  health : ∀ {t t'} shown, bot.database = some shown → alike t t' →
    ∀ now, health (shown t) now = health (shown t') now

variable {alike : τ → τ → Prop} {bot : Bot σ τ δ} {api' : Slack.Api σ'} {w : World σ τ δ}
  {w' : World σ' τ δ}

theorem answerRoll_alike (bot : Bot σ τ δ) (api' : Slack.Api σ')
    (hw : World.Alike alike w w') (c : Slack.Command)
    (team team' : Team.Credentials)
    (h : Agree (bot.slack.answers (bot.answerRoll c team w).2.1.calls w.slack)
      (api'.answers ((bot.withSlack api').answerRoll c team' w').2.1.calls w'.slack)) :
    Answer.Alike alike (bot.answerRoll c team w) ((bot.withSlack api').answerRoll c team' w') := by
  obtain ⟨slack, teams, dice⟩ := w
  obtain ⟨slack', teams', dice'⟩ := w'
  obtain ⟨hteams, hdice⟩ := hw
  dsimp only at hteams hdice
  subst hdice
  cases hr : Roll.reply c.text c.displayName ⟨bot.settings.nameFull, botVersion, c.command⟩
      bot.dice dice with
  | mk reply dice' =>
  have hafter : World.Alike alike (⟨slack, teams, dice'⟩ : World σ τ δ)
      (⟨slack', teams', dice'⟩ : World σ' τ δ) := ⟨hteams, rfl⟩
  cases reply with
  | help text =>
    simp only [answerRoll, withSlack, hr]
    exact Answer.alike_idle hafter _ rfl rfl
  | version text =>
    simp only [answerRoll, withSlack, hr]
    exact Answer.alike_idle hafter _ rfl rfl
  | rejected text =>
    simp only [answerRoll, withSlack, hr]
    exact Answer.alike_idle hafter _ rfl rfl
  | rolled text =>
    have hdeliver := @Slack.deliver_alike σ σ' bot.slack api' slack slack' team team' c.channelId
      text ⟨bot.settings.botUsername, bot.settings.botIcon⟩
    simp only [answerRoll, withSlack, hr] at h ⊢
    generalize Slack.deliver bot.slack team c.channelId text
      ⟨bot.settings.botUsername, bot.settings.botIcon⟩ slack = d at h hdeliver ⊢
    generalize Slack.deliver api' team' c.channelId text
      ⟨bot.settings.botUsername, bot.settings.botIcon⟩ slack' = d' at h hdeliver ⊢
    obtain ⟨delivered, trace, after⟩ := d
    obtain ⟨delivered', trace', after'⟩ := d'
    have hagree :
        Agree (bot.slack.answers trace.calls slack) (api'.answers trace'.calls slack') := by
      cases delivered <;> cases delivered' <;> simpa using h
    obtain ⟨he, hcalls⟩ := hdeliver hagree
    dsimp only at he hcalls
    subst he
    cases delivered with
    | error error => exact ⟨rfl, by simpa using hcalls, hteams, rfl⟩
    | ok _ => exact ⟨rfl, hcalls, hteams, rfl⟩

/-- A team whose tokens hold gets its roll, after the checks. -/
theorem answerCommand_vouched (bot : Bot σ τ δ) {c : Slack.Command} {team : Team.Credentials}
    {w : World σ τ δ} (hf : bot.store.find c.team w.teams = .ok (some team))
    (hv : (Slack.credentialsValid bot.slack team w.slack).1 = true) :
    let checks := Slack.credentialsValid bot.slack team w.slack
    let a := bot.answerRoll c team { w with slack := checks.2.2 }
    bot.answerCommand c w = (a.1, checks.2.1 ++ a.2.1, a.2.2) := by
  simp only [answerCommand, hf, hv, if_true]

theorem answerCommand_refused (bot : Bot σ τ δ) {c : Slack.Command} {team : Team.Credentials}
    {w : World σ τ δ} (hf : bot.store.find c.team w.teams = .ok (some team))
    (hv : (Slack.credentialsValid bot.slack team w.slack).1 = false) :
    let checks := Slack.credentialsValid bot.slack team w.slack
    bot.answerCommand c w = (.text 200 (authError bot.settings),
      checks.2.1 ++ .warn "slack.command.auth_error", { w with slack := checks.2.2 }) := by
  simp only [answerCommand, hf, hv, Bool.false_eq_true, if_false]

/-- The checks come first. -/
theorem answerCommand_calls (bot : Bot σ τ δ) {c : Slack.Command} {team : Team.Credentials}
    {w : World σ τ δ} (hf : bot.store.find c.team w.teams = .ok (some team)) :
    ∃ calls, (bot.answerCommand c w).2.1.calls =
      (Slack.credentialsValid bot.slack team w.slack).2.1.calls ++ calls := by
  cases hv : (Slack.credentialsValid bot.slack team w.slack).1 with
  | false =>
    rw [bot.answerCommand_refused hf hv]
    exact ⟨[], rfl⟩
  | true =>
    rw [bot.answerCommand_vouched hf hv]
    exact ⟨_, rfl⟩

theorem answerCommand_alike (hb : bot.Blind alike) (hw : World.Alike alike w w')
    (c : Slack.Command)
    (h : Agree (bot.slack.answers (bot.answerCommand c w).2.1.calls w.slack)
      (api'.answers ((bot.withSlack api').answerCommand c w').2.1.calls w'.slack)) :
    Answer.Alike alike (bot.answerCommand c w) ((bot.withSlack api').answerCommand c w') := by
  rcases hb.store.find_cases hw.teams c.team with
    ⟨error, hf, hf'⟩ | ⟨hf, hf'⟩ | ⟨team, team', hf, hf'⟩
  · simp only [answerCommand, withSlack, hf, hf']
    exact Answer.alike_idle hw _ rfl rfl
  · simp only [answerCommand, withSlack, hf, hf']
    exact Answer.alike_idle hw _ rfl rfl
  · -- the checks agree, and so the bot goes on in both runs or in none
    obtain ⟨calls, hcalls⟩ := bot.answerCommand_calls hf
    obtain ⟨calls', hcalls'⟩ := (bot.withSlack api').answerCommand_calls hf'
    have hchecks := h
    rw [hcalls, hcalls'] at hchecks
    obtain ⟨hsame, halike⟩ := Slack.credentialsValid_alike team team' hchecks.calls_left
    have hstate := Slack.credentialsValid_state bot.slack team w.slack
    have hstate' := Slack.credentialsValid_state api' team' w'.slack
    cases hv : (Slack.credentialsValid bot.slack team w.slack).1 with
    | false =>
      rw [bot.answerCommand_refused hf hv,
        (bot.withSlack api').answerCommand_refused hf' (hsame.symm.trans hv)]
      exact ⟨rfl, by simpa using halike, hw.teams, hw.dice⟩
    | true =>
      have hv' := hsame.symm.trans hv
      rw [bot.answerCommand_vouched hf hv,
        (bot.withSlack api').answerCommand_vouched hf' hv'] at h ⊢
      simp only [withSlack_slack] at h ⊢
      have hrest := Agree.calls_right halike.length_eq h
      rw [← hstate, ← hstate'] at hrest
      have hafter : World.Alike alike
          { w with slack := (Slack.credentialsValid bot.slack team w.slack).2.2 }
          { w' with slack := (Slack.credentialsValid api' team' w'.slack).2.2 } :=
        ⟨hw.teams, hw.dice⟩
      have hroll := answerRoll_alike bot api' hafter c team team' hrest
      exact hroll.after halike

theorem answerPayload_alike (hb : bot.Blind alike) (hw : World.Alike alike w w')
    (p : Slack.Payload) (requestId : String)
    (h : Agree (bot.slack.answers (bot.answerPayload p requestId w).2.1.calls w.slack)
      (api'.answers ((bot.withSlack api').answerPayload p requestId w').2.1.calls w'.slack)) :
    Answer.Alike alike (bot.answerPayload p requestId w)
      ((bot.withSlack api').answerPayload p requestId w') := by
  cases hp : p.command? bot.settings.allowedCommands requestId with
  | error error =>
    simp only [answerPayload, withSlack_settings, hp]
    exact Answer.alike_idle hw _ rfl rfl
  | ok c =>
    simp only [answerPayload, withSlack_settings, hp] at h ⊢
    exact (answerCommand_alike hb hw c (by simpa using h)).after .nil

/-- What is kept of two grants, apart from their tokens. -/
theorem keepGrant_alike (hb : bot.Blind alike) (hw : World.Alike alike w w')
    {grant grant' : Slack.Grant} (hteam : grant.teamId = grant'.teamId)
    (hbot : grant.botUserId = grant'.botUserId) (now : Time.Instant) :
    Answer.Alike alike (bot.keepGrant grant now w)
      ((bot.withSlack api').keepGrant grant' now w') := by
  cases ht : Team.Id.parse grant.teamId with
  | error error =>
    rw [bot.keepGrant_unusable now w ht,
      (bot.withSlack api').keepGrant_unusable now w' (hteam ▸ ht)]
    exact Answer.alike_idle hw _ rfl rfl
  | ok team =>
    have ht' : Team.Id.parse grant'.teamId = .ok team := hteam ▸ ht
    have hc : (credentialsOf grant team now).Alike (credentialsOf grant' team now) :=
      ⟨rfl, hbot, rfl, rfl⟩
    obtain ⟨hsaved, hteams⟩ := hb.store.save hw.teams hc
    cases hs : (bot.store.save (credentialsOf grant team now) w.teams).1 with
    | error error =>
      rw [bot.keepGrant_failed ht hs,
        (bot.withSlack api').keepGrant_failed ht' (hsaved.symm.trans hs)]
      exact ⟨rfl, .nil, hteams, hw.dice⟩
    | ok saved =>
      obtain ⟨event, he⟩ := bot.keepGrant_saved ht hs
      obtain ⟨event', he'⟩ := (bot.withSlack api').keepGrant_saved ht' (hsaved.symm.trans hs)
      rw [he, he']
      exact ⟨rfl, .nil, hteams, hw.dice⟩

theorem endInstallation_alike (hb : bot.Blind alike) (hw : World.Alike alike w w')
    (callback : Callback) (now : Time.Instant)
    (h : Agree (bot.slack.answers (bot.endInstallation callback now w).2.1.calls w.slack)
      (api'.answers ((bot.withSlack api').endInstallation callback now w').2.1.calls w'.slack)) :
    Answer.Alike alike (bot.endInstallation callback now w)
      ((bot.withSlack api').endInstallation callback now w') := by
  by_cases hg : ∃ state code, callback.Gives state code
  · obtain ⟨state, code, hg⟩ := hg
    cases hv : (signer bot.settings).verify state now with
    | error error =>
      rw [bot.endInstallation_refused w hg hv,
        (bot.withSlack api').endInstallation_refused w' hg hv]
      exact Answer.alike_idle hw _ (by cases error <;> rfl) (by cases error <;> rfl)
    | ok issued =>
      have ha : bot.Admits callback now code := ⟨state, issued, hg, hv⟩
      have ha' : (bot.withSlack api').Admits callback now code := ⟨state, issued, hg, hv⟩
      obtain ⟨_, trace, _, he, hc⟩ := ha.calls w
      obtain ⟨_, trace', _, he', hc'⟩ := ha'.calls w'
      rw [he, he'] at h
      dsimp only at h
      rw [hc, hc'] at h
      have hafter : World.Alike alike (bot.afterExchange w code)
        ((bot.withSlack api').afterExchange w' code) := ⟨hw.teams, hw.dice⟩
      have hcalls : CallsAlike [.oauthAccess (exchangeRequest bot.settings code)]
        [.oauthAccess (exchangeRequest bot.settings code)] := .cons (.oauthAccess _) .nil
      rcases h.head.grants with ⟨error, hx, hx'⟩ | ⟨grant, grant', hx, hx', hteam, hbot⟩
      · rw [bot.endInstallation_failed ha hx, (bot.withSlack api').endInstallation_failed ha' hx']
        exact ⟨rfl, hcalls, hafter⟩
      · rw [bot.endInstallation_granted ha hx rfl,
          (bot.withSlack api').endInstallation_granted ha' hx' rfl]
        exact (keepGrant_alike hb hafter hteam hbot now).after hcalls
  · rw [bot.endInstallation_missing now w hg,
      (bot.withSlack api').endInstallation_missing now w' hg]
    exact Answer.alike_idle hw _ rfl rfl

theorem beginInstallation_calls (s : Settings) (now : Time.Instant) :
    (beginInstallation s now).2.calls = [] := by
  unfold beginInstallation
  cases Web.Url.parse? s.oauthUrl <;> rfl

/-- One request: what comes of it is alike when the worlds and the answers of Slack are. -/
theorem answerRoute_alike (hb : bot.Blind alike) (hw : World.Alike alike w w') (now : Time.Instant)
    (r : Request) (route : Route)
    (h : Agree (bot.slack.answers (bot.answerRoute now r w route).2.1.calls w.slack)
      (api'.answers ((bot.withSlack api').answerRoute now r w' route).2.1.calls w'.slack)) :
    Answer.Alike alike (bot.answerRoute now r w route)
      ((bot.withSlack api').answerRoute now r w' route) := by
  cases route with
  | home =>
    simp only [answerRoute, withSlack_settings]
    cases installedOf? r.query with
    | none => exact Answer.alike_idle hw _ rfl rfl
    | some installed => exact Answer.alike_idle hw _ rfl rfl
  | command =>
    simp only [answerRoute] at h ⊢
    cases hp : payloadOf r with
    | error status => exact Answer.alike_idle hw _ rfl rfl
    | ok payload =>
      simp only [hp] at h
      exact answerPayload_alike hb hw payload _ h
  | authenticate =>
    simp only [answerRoute, withSlack_settings]
    have hcalls := beginInstallation_calls bot.settings now
    exact Answer.alike_idle hw _ hcalls hcalls
  | validate =>
    simp only [answerRoute] at h ⊢
    cases hc : Callback.ofQuery? r.query with
    | none => exact Answer.alike_idle hw _ rfl rfl
    | some callback =>
      simp only [hc] at h
      exact endInstallation_alike hb hw callback now h
  | health =>
    simp only [answerRoute, withSlack_database]
    cases hd : bot.database with
    | none => exact Answer.alike_idle hw _ rfl rfl
    | some shown =>
      dsimp only
      rw [hb.health shown hd hw.teams now]
      exact Answer.alike_idle hw _ rfl rfl

theorem respond_alike (hb : bot.Blind alike) (hw : World.Alike alike w w') (now : Time.Instant)
    (r : Request)
    (h : Agree (bot.slack.answers (bot.respond now r w).2.1.calls w.slack)
      (api'.answers ((bot.withSlack api').respond now r w').2.1.calls w'.slack)) :
    Answer.Alike alike (bot.respond now r w) ((bot.withSlack api').respond now r w') := by
  unfold respond at h ⊢
  rw [withSlack_database] at h ⊢
  cases hr : Route.find bot.database.isSome r.method r.path with
  | error status => exact Answer.alike_idle hw _ rfl rfl
  | ok route =>
    rw [hr] at h
    have halike := answerRoute_alike hb hw now r route h
    refine ⟨?_, halike.calls, halike.world⟩
    dsimp only
    rw [halike.response]

/-- Slack is left as what the trace says that it was asked leaves it. -/
theorem respond_slack_eq (bot : Bot σ τ δ) (now : Time.Instant) (r : Request) (w : World σ τ δ) :
    (bot.respond now r w).2.2.slack = bot.slack.after (bot.respond now r w).2.1.calls w.slack := by
  unfold respond
  cases hr : Route.find bot.database.isSome r.method r.path with
  | error status => rfl
  | ok route =>
    change (bot.answerRoute now r w route).2.2.slack =
      bot.slack.after (bot.answerRoute now r w route).2.1.calls w.slack
    cases route with
    | home =>
      unfold answerRoute
      cases installedOf? r.query <;> rfl
    | command =>
      unfold answerRoute
      cases hp : payloadOf r with
      | error status => rfl
      | ok payload => exact (answerPayload_end bot payload Fault.unassigned w).slack_eq
    | authenticate =>
      simp only [answerRoute, beginInstallation_calls, Slack.Api.after_nil]
    | validate =>
      unfold answerRoute
      cases hc : Callback.ofQuery? r.query with
      | none => rfl
      | some callback => exact (endInstallation_frame bot callback now w).1
    | health =>
      unfold answerRoute
      cases bot.database <;> rfl

/-- What Slack was asked on the way to responses. -/
def callsOf (answers : List (Response × Slack.Trace)) : List Slack.Call :=
  answers.flatMap fun answer => answer.2.calls

/-- The answers of Slack in a run. -/
def heard (bot : Bot σ τ δ) (requests : List (Time.Instant × Request)) (w : World σ τ δ) :
    List Slack.Said :=
  bot.slack.answers (callsOf (bot.run requests w).1) w.slack

theorem heard_cons (bot : Bot σ τ δ) (now : Time.Instant) (r : Request)
    (requests : List (Time.Instant × Request)) (w : World σ τ δ) :
    bot.heard ((now, r) :: requests) w =
      bot.slack.answers (bot.respond now r w).2.1.calls w.slack ++
        bot.heard requests (bot.respond now r w).2.2 := by
  unfold heard
  rw [respond_slack_eq, ← Slack.Api.answers_append]
  rfl

/-- A run: as long as Slack answers alike, the responses are the same. -/
theorem run_alike (hb : bot.Blind alike) (requests : List (Time.Instant × Request))
    (hw : World.Alike alike w w')
    (h : Agree (bot.heard requests w) ((bot.withSlack api').heard requests w')) :
    (bot.run requests w).1.map Prod.fst = ((bot.withSlack api').run requests w').1.map Prod.fst ∧
    CallsAlike (callsOf (bot.run requests w).1)
      (callsOf ((bot.withSlack api').run requests w').1) ∧
    World.Alike alike (bot.run requests w).2 ((bot.withSlack api').run requests w').2 := by
  induction requests generalizing w w' with
  | nil => exact ⟨rfl, .nil, hw⟩
  | cons x requests ih =>
    obtain ⟨now, r⟩ := x
    rw [heard_cons, heard_cons, withSlack_slack] at h
    have hstep := respond_alike hb hw now r h.left
    obtain ⟨hresponses, hcalls, hafter⟩ := ih hstep.world (h.right (by
      rw [Slack.Api.length_answers, Slack.Api.length_answers, hstep.calls.length_eq]))
    refine ⟨?_, hstep.calls.append hcalls, hafter⟩
    exact congrArg₂ List.cons hstep.response hresponses

/-- A bot that keeps its teams in a repository, and whose health is that of the database of the
repository, if it has one. -/
structure Keeper (bot : Bot σ Team.Repository δ) : Prop where
  store : bot.store = Team.Repository.store
  health : ∀ shown, bot.database = some shown →
    ∃ other, ∀ teams, shown teams = (Team.Repository.database? teams).getD other

theorem Keeper.blind {bot : Bot σ Team.Repository δ} (h : bot.Keeper) :
    bot.Blind Team.Repository.Alike where
  store := h.store ▸ Team.Repository.store_blind
  health := by
    intro t t' shown hs ht now
    obtain ⟨other, hshown⟩ := h.health shown hs
    rw [hshown, hshown]
    cases ht with
    | memory => rfl
    | @vault v v' hv =>
      have hclosed := hv.database.closed
      have hledger := hv.database.ledger
      change Server.health v.database now = Server.health v'.database now
      generalize v.database = s at hclosed hledger ⊢
      generalize v'.database = s' at hclosed hledger ⊢
      obtain ⟨closed, ledger, teams⟩ := s
      obtain ⟨closed', ledger', teams'⟩ := s'
      dsimp only at hclosed hledger
      subst hclosed hledger
      rfl

/-- Tokens that Slack grants reach no response: in two runs over the same requests, from stores that
differ in tokens at most and with Slacks whose answers do, every response is the same. -/
theorem tokens_unseen (bot : Bot σ Team.Repository δ) (hb : bot.Keeper) (api' : Slack.Api σ')
    (w : World σ Team.Repository δ) (w' : World σ' Team.Repository δ)
    (hteams : w.teams.Alike w'.teams) (hdice : w.dice = w'.dice)
    (requests : List (Time.Instant × Request))
    (h : Agree (bot.heard requests w) ((bot.withSlack api').heard requests w')) :
    (bot.run requests w).1.map Prod.fst =
      ((bot.withSlack api').run requests w').1.map Prod.fst := by
  obtain ⟨hresponses, -, -⟩ := run_alike hb.blind requests ⟨hteams, hdice⟩ h
  exact hresponses

/-- A bot with its usual settings, teams in memory and a Slack that grants two tokens and takes no
others. -/
def granting (user bot : String) : Bot Unit Team.Repository Unit where
  settings := .usual
  slack := ⟨fun token s => (if token = user ∨ token = bot then .ok ⟨"T1", "U1"⟩
      else .error (.refused "invalid_auth"), s),
    fun token _ s => (if token = bot then .ok () else .error (.refused "not_authed"), s),
    fun _ s => (.ok ⟨user, "T1", "B1", bot⟩, s)⟩
  store := Team.Repository.store
  dice := ⟨fun _ s => (3, s)⟩
  database := none

/-- What is heard when a roll is posted and then a grant is given. -/
theorem heard_granting {user bot : String} {now now' : Time.Instant} {roll back : Request}
    {w : World Unit Team.Repository Unit} {message : Slack.Message}
    {request : Slack.ExchangeRequest}
    (hroll : ((granting user bot).respond now roll w).2.1.calls =
      [.authTest user, .authTest bot, .postMessage bot message])
    (hback : ∀ w, ((granting user bot).respond now' back w).2.1.calls = [.oauthAccess request]) :
    (granting user bot).heard [(now, roll), (now', back)] w = [.identity (.ok ⟨"T1", "U1"⟩),
      .identity (.ok ⟨"T1", "U1"⟩), .posted (.ok ()), .granted (.ok ⟨user, "T1", "B1", bot⟩)] := by
  rw [heard_cons, heard_cons, hroll, hback]
  simp [Slack.Api.answers, Slack.Api.say, granting, heard, run, callsOf]

/-- A roll and then another grant, in two runs whose tokens are others. -/
theorem tokens_unseen_granting :
    let token := (signer .usual).issue ⟨5, 0⟩
    let roll : Request := ⟨"POST", "/", "", some "application/x-www-form-urlencoded",
      "command=/roll&text=d6&team_id=T1&channel_id=C1&user_id=U1&user_name=ann"⟩
    let back : Request := ⟨"GET", "/validate", String.ofList
      (Web.Form.encodePairs [("state", token), ("code", "c")]), none, ""⟩
    let requests : List (Time.Instant × Request) := [(⟨6, 0⟩, roll), (⟨7, 0⟩, back)]
    let bot := granting "xoxp-1" "xoxb-1"
    let w : World Unit Team.Repository Unit :=
      ⟨(), .memory [⟨⟨"T1"⟩, "xoxp-1", "B1", "xoxb-1", ⟨0, 0⟩, ⟨0, 0⟩⟩], ()⟩
    let bot' := granting "xoxp-2" "xoxb-2"
    let w' : World Unit Team.Repository Unit :=
      ⟨(), .memory [⟨⟨"T1"⟩, "xoxp-2", "B1", "xoxb-2", ⟨0, 0⟩, ⟨0, 0⟩⟩], ()⟩
    (bot.Keeper ∧ w.teams.Alike w'.teams ∧ Agree (bot.heard requests w) (bot'.heard requests w')) ∧
    (bot.run requests w).1.map Prod.fst = (bot'.run requests w').1.map Prod.fst := by
  intro token roll back requests bot w bot' w'
  have hkeeper : bot.Keeper := ⟨rfl, fun _ h => nomatch h⟩
  have hteams : w.teams.Alike w'.teams := .memory (.cons ⟨rfl, rfl, rfl, rfl⟩ .nil)
  have hverify : (signer Settings.usual).verify token ⟨7, 0⟩ = .ok ⟨5, 0⟩ :=
    Install.Signer.verify_issue_ok "" "" (by decide) (by decide) (by decide)
  have htoken : token ≠ "" := by
    intro he
    rw [he] at hverify
    cases hverify
  have hquery : Callback.ofQuery? back.query = some ⟨some token, some "c", none⟩ :=
    Callback.ofQuery?_encodePairs (List.Perm.refl _)
  have hback (user bot : String) (w : World Unit Team.Repository Unit) :
      ((granting user bot).respond ⟨7, 0⟩ back w).2.1.calls =
        [.oauthAccess (exchangeRequest .usual "c")] := by
    have hadmits : (granting user bot).Admits ⟨some token, some "c", none⟩ ⟨7, 0⟩ "c" :=
      ⟨token, _, ⟨rfl, htoken, rfl, by decide⟩, hverify⟩
    obtain ⟨response, trace, teams, he, hc⟩ := hadmits.calls w
    rw [(granting user bot).respond_validate (r := back) rfl rfl hquery, he]
    exact hc
  let message : Slack.Message :=
    ⟨"C1", "_ann rolled 1 6-sided die:_  *3*  ( 3 )", "Roll Bot", ":game_die:"⟩
  have hroll : (bot.respond ⟨6, 0⟩ roll w).2.1.calls =
      [.authTest "xoxp-1", .authTest "xoxb-1", .postMessage "xoxb-1" message] := by decide +kernel
  have hroll' : (bot'.respond ⟨6, 0⟩ roll w').2.1.calls =
      [.authTest "xoxp-2", .authTest "xoxb-2", .postMessage "xoxb-2" message] := by decide +kernel
  have hagree : Agree (bot.heard requests w) (bot'.heard requests w') := by
    rw [heard_granting hroll (hback _ _), heard_granting hroll' (hback _ _)]
    intro pair hp
    simp only [List.zip_cons_cons, List.zip_nil_left, List.mem_cons, List.not_mem_nil,
      or_false] at hp
    rcases hp with rfl | rfl | rfl | rfl
    · exact .same _
    · exact .same _
    · exact .same _
    · exact .granted rfl rfl
  exact ⟨⟨hkeeper, hteams, hagree⟩,
    tokens_unseen bot hkeeper bot'.slack w w' hteams rfl requests hagree⟩
end Bot
end DiceBot.Server
