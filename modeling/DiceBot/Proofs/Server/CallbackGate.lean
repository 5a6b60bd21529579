import DiceBot.Proofs.Install.StateToken
import DiceBot.Proofs.Slack.Calls
import DiceBot.Proofs.Team.Atomic
import DiceBot.Proofs.Text.Split
import DiceBot.Proofs.Web.Header
import DiceBot.Server.Installation
import DiceBot.Slack.Client

/-!
What a callback of an installation does: the code is exchanged only with a state token that holds,
and a team is saved only with what Slack granted.
-/

namespace DiceBot.Server

open Slack (Call)

variable {σ τ δ : Type}

/-- A state and a code that a callback gives, neither of them empty. -/
structure Callback.Gives (callback : Callback) (state code : String) : Prop where
  state_eq : callback.state = some state
  state_ne : state ≠ ""
  code_eq : callback.code = some code
  code_ne : code ≠ ""

theorem given_eq_some_iff {argument : Option String} {s : String} :
    given argument = some s ↔ argument = some s ∧ s ≠ "" := by
  simp [given, Option.filter_eq_some_iff]

theorem Callback.gives_iff {callback : Callback} {state code : String} :
    callback.Gives state code ↔
      given callback.state = some state ∧ given callback.code = some code := by
  rw [given_eq_some_iff, given_eq_some_iff]
  constructor
  · intro h
    exact ⟨⟨h.state_eq, h.state_ne⟩, h.code_eq, h.code_ne⟩
  · rintro ⟨⟨hs, hs'⟩, hc, hc'⟩
    exact ⟨hs, hs', hc, hc'⟩

theorem Callback.Gives.unique {callback : Callback} {state state' code code' : String}
    (h : callback.Gives state code) (h' : callback.Gives state' code') :
    state = state' ∧ code = code' :=
  ⟨Option.some.inj (h.state_eq.symm.trans h'.state_eq),
    Option.some.inj (h.code_eq.symm.trans h'.code_eq)⟩

namespace Bot

/-- A callback whose code is exchanged: it gives a code and a state token that holds. -/
def Admits (bot : Bot σ τ δ) (callback : Callback) (now : Time.Instant) (code : String) : Prop :=
  ∃ state issued, callback.Gives state code ∧
    (signer bot.settings).verify state now = .ok issued

/-- The answer of Slack to the exchange of a code. -/
def exchanged (bot : Bot σ τ δ) (w : World σ τ δ) (code : String) :
    Except Slack.ApiError Slack.Grant :=
  (bot.slack.oauthAccess (exchangeRequest bot.settings code) w.slack).1

/-- What is kept of a grant. -/
def credentialsOf (grant : Slack.Grant) (team : Team.Id) (now : Time.Instant) :
    Team.Credentials :=
  ⟨team, grant.accessToken, grant.botUserId, grant.botAccessToken, now, now⟩

/-- A callback that is let through and gets a grant for a team. -/
def Installs (bot : Bot σ τ δ) (callback : Callback) (now : Time.Instant) (w : World σ τ δ)
    (c : Team.Credentials) : Prop :=
  ∃ code grant team, bot.Admits callback now code ∧ bot.exchanged w code = .ok grant ∧
    Team.Id.parse grant.teamId = .ok team ∧ c = credentialsOf grant team now

theorem Admits.unique {bot : Bot σ τ δ} {callback : Callback} {now : Time.Instant}
    {code code' : String} (h : bot.Admits callback now code)
    (h' : bot.Admits callback now code') : code = code' := by
  obtain ⟨state, issued, hg, -⟩ := h
  obtain ⟨state', issued', hg', -⟩ := h'
  exact (hg.unique hg').2

theorem Installs.unique {bot : Bot σ τ δ} {callback : Callback} {now : Time.Instant}
    {w : World σ τ δ} {c c' : Team.Credentials} (h : bot.Installs callback now w c)
    (h' : bot.Installs callback now w c') : c = c' := by
  obtain ⟨code, grant, team, ha, he, ht, rfl⟩ := h
  obtain ⟨code', grant', team', ha', he', ht', rfl⟩ := h'
  cases ha.unique ha'
  cases he.symm.trans he'
  cases ht.symm.trans ht'
  rfl

/-- A callback that is let through and gets a grant for a team which the store then takes. -/
def Keeps (bot : Bot σ τ δ) (callback : Callback) (now : Time.Instant) (w : World σ τ δ) : Prop :=
  ∃ c saved, bot.Installs callback now w c ∧ (bot.store.save c w.teams).1 = .ok saved

/-- What the caller is to blame for. -/
inductive BadCallback (bot : Bot σ τ δ) (callback : Callback) (now : Time.Instant)
    (w : World σ τ δ) : Prop where
  | missing (hn : ¬ ∃ state code, callback.Gives state code)
  | expired {state code age} (hg : callback.Gives state code)
      (hv : (signer bot.settings).verify state now = .error (.expired age))
  | refused {code said} (ha : bot.Admits callback now code)
      (he : bot.exchanged w code = .error (.refused said))
  | malformed {code detail} (ha : bot.Admits callback now code)
      (he : bot.exchanged w code = .error (.malformed detail))
  | unusableTeam {code grant error} (ha : bot.Admits callback now code)
      (he : bot.exchanged w code = .ok grant) (ht : Team.Id.parse grant.teamId = .error error)

/-- A state token that was not issued here. -/
inductive ForeignState (bot : Bot σ τ δ) (callback : Callback) (now : Time.Instant) : Prop where
  | malformed {state code} (hg : callback.Gives state code)
      (hv : (signer bot.settings).verify state now = .error .malformed)
  | forged {state code} (hg : callback.Gives state code)
      (hv : (signer bot.settings).verify state now = .error .forged)

/-- Slack was not reached, or the store did not take what it granted. -/
inductive Unreached (bot : Bot σ τ δ) (callback : Callback) (now : Time.Instant)
    (w : World σ τ δ) : Prop where
  | transport {code detail} (ha : bot.Admits callback now code)
      (he : bot.exchanged w code = .error (.transport detail))
  | failed {code status} (ha : bot.Admits callback now code)
      (he : bot.exchanged w code = .error (.status status))
  | notSaved {c error} (hi : bot.Installs callback now w c)
      (hs : (bot.store.save c w.teams).1 = .error error)

theorem callback_cases (bot : Bot σ τ δ) (callback : Callback) (now : Time.Instant)
    (w : World σ τ δ) :
    bot.BadCallback callback now w ∨ bot.ForeignState callback now ∨
      bot.Unreached callback now w ∨ bot.Keeps callback now w := by
  by_cases hg : ∃ state code, callback.Gives state code
  · obtain ⟨state, code, hg⟩ := hg
    cases hv : (signer bot.settings).verify state now with
    | error error =>
      cases error with
      | malformed => exact .inr (.inl (.malformed hg hv))
      | forged => exact .inr (.inl (.forged hg hv))
      | expired age => exact .inl (.expired hg hv)
    | ok issued =>
      have ha : bot.Admits callback now code := ⟨state, issued, hg, hv⟩
      cases he : bot.exchanged w code with
      | error error =>
        cases error with
        | transport detail => exact .inr (.inr (.inl (.transport ha he)))
        | status status => exact .inr (.inr (.inl (.failed ha he)))
        | refused said => exact .inl (.refused ha he)
        | malformed detail => exact .inl (.malformed ha he)
      | ok grant =>
        cases ht : Team.Id.parse grant.teamId with
        | error error => exact .inl (.unusableTeam ha he ht)
        | ok team =>
          have hi : bot.Installs callback now w (credentialsOf grant team now) :=
            ⟨code, grant, team, ha, he, ht, rfl⟩
          cases hs : (bot.store.save (credentialsOf grant team now) w.teams).1 with
          | error error => exact .inr (.inr (.inl (.notSaved hi hs)))
          | ok saved => exact .inr (.inr (.inr ⟨_, saved, hi, hs⟩))
  · exact .inl (.missing hg)

/-- The trace of an exchange and the events after it. -/
def exchangeTrace (bot : Bot σ τ δ) (code : String) (after : Slack.Trace) : Slack.Trace :=
  .ofCall (.oauthAccess (exchangeRequest bot.settings code)) ++ after

/-- The world after the exchange of a code. -/
def afterExchange (bot : Bot σ τ δ) (w : World σ τ δ) (code : String) : World σ τ δ :=
  { w with slack := bot.slack.after [.oauthAccess (exchangeRequest bot.settings code)] w.slack }

theorem endInstallation_missing (bot : Bot σ τ δ) {callback : Callback} (now : Time.Instant)
    (w : World σ τ δ) (h : ¬ ∃ state code, callback.Gives state code) :
    bot.endInstallation callback now w =
      (.failure 400 "Missing state or code.", .warn "oauth.callback.missing_args", w) := by
  unfold endInstallation
  split
  · next state code hs hc => exact absurd ⟨state, code, Callback.gives_iff.mpr ⟨hs, hc⟩⟩ h
  · rfl

theorem endInstallation_refused (bot : Bot σ τ δ) {callback : Callback} {now : Time.Instant}
    (w : World σ τ δ) {state code : String} {error : Install.StateError}
    (h : callback.Gives state code)
    (hv : (signer bot.settings).verify state now = .error error) :
    bot.endInstallation callback now w = ((stateRefused error).1, (stateRefused error).2, w) := by
  obtain ⟨hs, hc⟩ := Callback.gives_iff.mp h
  simp only [endInstallation, hs, hc, hv]

theorem endInstallation_failed (bot : Bot σ τ δ) {callback : Callback} {now : Time.Instant}
    {w : World σ τ δ} {code : String} {error : Slack.ApiError}
    (h : bot.Admits callback now code) (he : bot.exchanged w code = .error error) :
    bot.endInstallation callback now w =
      (exchangeFailed error, bot.exchangeTrace code (.warn "oauth.exchange.failed"),
        bot.afterExchange w code) := by
  obtain ⟨state, issued, hg, hv⟩ := h
  obtain ⟨hs, hc⟩ := Callback.gives_iff.mp hg
  unfold exchanged at he
  simp only [endInstallation, hs, hc, hv, he]
  rfl

theorem endInstallation_granted (bot : Bot σ τ δ) {callback : Callback} {now : Time.Instant}
    {w w' : World σ τ δ} {code : String} {grant : Slack.Grant} {response : Web.Response}
    {trace : Slack.Trace} (h : bot.Admits callback now code)
    (he : bot.exchanged w code = .ok grant)
    (hk : bot.keepGrant grant now (bot.afterExchange w code) = (response, trace, w')) :
    bot.endInstallation callback now w = (response, bot.exchangeTrace code trace, w') := by
  obtain ⟨state, issued, hg, hv⟩ := h
  obtain ⟨hs, hc⟩ := Callback.gives_iff.mp hg
  unfold exchanged at he
  change bot.keepGrant grant now { w with
    slack := (bot.slack.oauthAccess (exchangeRequest bot.settings code) w.slack).2 } = _ at hk
  simp only [endInstallation, hs, hc, hv, he, hk]
  rfl

theorem keepGrant_unusable (bot : Bot σ τ δ) {grant : Slack.Grant} {error : Team.IdError}
    (now : Time.Instant) (w : World σ τ δ) (ht : Team.Id.parse grant.teamId = .error error) :
    bot.keepGrant grant now w =
      (.failure 400 ((Failure.team error).fault Fault.unassigned).userMessage,
        .warn "oauth.exchange.invalid_team", w) := by
  simp only [keepGrant, ht]

theorem keepGrant_failed (bot : Bot σ τ δ) {grant : Slack.Grant} {team : Team.Id}
    {now : Time.Instant} {w : World σ τ δ} {error : Team.StoreError}
    (ht : Team.Id.parse grant.teamId = .ok team)
    (hs : (bot.store.save (credentialsOf grant team now) w.teams).1 = .error error) :
    bot.keepGrant grant now w = (.failure 503 (unavailable error), .error "oauth.team.save_failed",
      { w with teams := (bot.store.save (credentialsOf grant team now) w.teams).2 }) := by
  unfold credentialsOf at *
  simp only [keepGrant, ht, hs]

theorem keepGrant_saved (bot : Bot σ τ δ) {grant : Slack.Grant} {team : Team.Id}
    {now : Time.Instant} {w : World σ τ δ} {saved : Team.Saved}
    (ht : Team.Id.parse grant.teamId = .ok team)
    (hs : (bot.store.save (credentialsOf grant team now) w.teams).1 = .ok saved) :
    ∃ event, bot.keepGrant grant now w = (.seeOther (installedUrl bot.settings), .info event,
      { w with teams := (bot.store.save (credentialsOf grant team now) w.teams).2 }) := by
  unfold credentialsOf at *
  cases saved with
  | inserted => exact ⟨"oauth.team.added", by simp only [keepGrant, ht, hs]⟩
  | updated => exact ⟨"oauth.team.updated", by simp only [keepGrant, ht, hs]⟩

/-- An installation saves the credentials that Slack granted, whether or not the store takes them. -/
theorem Installs.answer {bot : Bot σ τ δ} {callback : Callback} {now : Time.Instant}
    {w : World σ τ δ} {c : Team.Credentials} (h : bot.Installs callback now w c) :
    ∃ code trace, bot.Admits callback now code ∧ trace.calls = [] ∧
      bot.endInstallation callback now w =
        (match (bot.store.save c w.teams).1 with
          | .ok _ => .seeOther (installedUrl bot.settings)
          | .error error => .failure 503 (unavailable error),
        bot.exchangeTrace code trace,
        { bot.afterExchange w code with teams := (bot.store.save c w.teams).2 }) := by
  obtain ⟨code, grant, team, ha, he, ht, rfl⟩ := h
  cases hs : (bot.store.save (credentialsOf grant team now) w.teams).1 with
  | error error =>
    exact ⟨code, _, ha, rfl, endInstallation_granted bot ha he (keepGrant_failed bot ht hs)⟩
  | ok saved =>
    obtain ⟨event, hk⟩ := keepGrant_saved bot (w := bot.afterExchange w code) ht hs
    exact ⟨code, _, ha, rfl, endInstallation_granted bot ha he hk⟩

/-- Without an installation the callback fails, and the store is not asked to save. -/
theorem endInstallation_not_installs {bot : Bot σ τ δ} {callback : Callback} {now : Time.Instant}
    {w : World σ τ δ} (h : ¬ ∃ c, bot.Installs callback now w c) :
    ∃ status said trace w', bot.endInstallation callback now w = (.failure status said, trace, w') ∧
      w'.teams = w.teams := by
  rcases bot.callback_cases callback now w with hb | hf | hu | ⟨c, saved, hi, hs⟩
  · cases hb with
    | missing hn => exact ⟨_, _, _, _, endInstallation_missing bot now w hn, rfl⟩
    | expired hg hv => exact ⟨_, _, _, _, endInstallation_refused bot w hg hv, rfl⟩
    | refused ha he => exact ⟨_, _, _, _, endInstallation_failed bot ha he, rfl⟩
    | malformed ha he => exact ⟨_, _, _, _, endInstallation_failed bot ha he, rfl⟩
    | unusableTeam ha he ht =>
      exact ⟨_, _, _, _, endInstallation_granted bot ha he (keepGrant_unusable bot now _ ht), rfl⟩
  · cases hf with
    | malformed hg hv => exact ⟨_, _, _, _, endInstallation_refused bot w hg hv, rfl⟩
    | forged hg hv => exact ⟨_, _, _, _, endInstallation_refused bot w hg hv, rfl⟩
  · cases hu with
    | transport ha he => exact ⟨_, _, _, _, endInstallation_failed bot ha he, rfl⟩
    | failed ha he => exact ⟨_, _, _, _, endInstallation_failed bot ha he, rfl⟩
    | notSaved hi hs => exact absurd ⟨_, hi⟩ h
  · exact absurd ⟨c, hi⟩ h

/-- A callback that is let through has its code exchanged, once. -/
theorem Admits.calls {bot : Bot σ τ δ} {callback : Callback} {now : Time.Instant} {code : String}
    (w : World σ τ δ) (h : bot.Admits callback now code) :
    ∃ response trace teams, bot.endInstallation callback now w =
      (response, trace, { bot.afterExchange w code with teams := teams }) ∧
      trace.calls = [.oauthAccess (exchangeRequest bot.settings code)] := by
  by_cases hi : ∃ c, bot.Installs callback now w c
  · obtain ⟨c, hi⟩ := hi
    obtain ⟨code', trace, ha, ht, he⟩ := hi.answer
    cases h.unique ha
    refine ⟨_, _, _, he, ?_⟩
    rw [exchangeTrace, Slack.Trace.append_calls, ht]
    rfl
  · cases he : bot.exchanged w code with
    | error error => exact ⟨_, _, _, endInstallation_failed bot h he, rfl⟩
    | ok grant =>
      cases ht : Team.Id.parse grant.teamId with
      | error error =>
        exact ⟨_, _, _, endInstallation_granted bot h he (keepGrant_unusable bot now _ ht), rfl⟩
      | ok team => exact absurd ⟨_, code, grant, team, h, he, ht, rfl⟩ hi

/-- Any other callback asks nothing of Slack and changes nothing. -/
theorem endInstallation_not_admits {bot : Bot σ τ δ} {callback : Callback} {now : Time.Instant}
    (w : World σ τ δ) (h : ¬ ∃ code, bot.Admits callback now code) :
    ∃ response trace, bot.endInstallation callback now w = (response, trace, w) ∧
      trace.calls = [] := by
  by_cases hg : ∃ state code, callback.Gives state code
  · obtain ⟨state, code, hg⟩ := hg
    cases hv : (signer bot.settings).verify state now with
    | error error =>
      refine ⟨_, _, endInstallation_refused bot w hg hv, ?_⟩
      cases error <;> rfl
    | ok issued => exact absurd ⟨code, state, issued, hg, hv⟩ h
  · exact ⟨_, _, endInstallation_missing bot now w hg, rfl⟩

/-- Slack is asked what the trace says and nothing else, and no dice are drawn. -/
theorem endInstallation_frame (bot : Bot σ τ δ) (callback : Callback) (now : Time.Instant)
    (w : World σ τ δ) :
    let a := bot.endInstallation callback now w
    a.2.2.slack = bot.slack.after a.2.1.calls w.slack ∧ a.2.2.dice = w.dice := by
  intro a
  by_cases ha : ∃ code, bot.Admits callback now code
  · obtain ⟨code, ha⟩ := ha
    obtain ⟨response, trace, teams, he, hc⟩ := ha.calls w
    simp only [a, he, hc]
    exact ⟨rfl, rfl⟩
  · obtain ⟨response, trace, he, hc⟩ := endInstallation_not_admits w ha
    simp only [a, he, hc]
    exact ⟨rfl, trivial⟩

theorem BadCallback.status_eq {bot : Bot σ τ δ} {callback : Callback} {now : Time.Instant}
    {w : World σ τ δ} (h : bot.BadCallback callback now w) :
    (bot.endInstallation callback now w).1.status = 400 := by
  cases h with
  | missing hn => rw [endInstallation_missing bot now w hn]; rfl
  | expired hg hv => rw [endInstallation_refused bot w hg hv]; rfl
  | refused ha he => rw [endInstallation_failed bot ha he]; rfl
  | malformed ha he => rw [endInstallation_failed bot ha he]; rfl
  | unusableTeam ha he ht =>
    rw [endInstallation_granted bot ha he (keepGrant_unusable bot now _ ht)]
    rfl

theorem ForeignState.status_eq {bot : Bot σ τ δ} {callback : Callback} {now : Time.Instant}
    (w : World σ τ δ) (h : bot.ForeignState callback now) :
    (bot.endInstallation callback now w).1.status = 401 := by
  cases h with
  | malformed hg hv => rw [endInstallation_refused bot w hg hv]; rfl
  | forged hg hv => rw [endInstallation_refused bot w hg hv]; rfl

theorem Unreached.status_eq {bot : Bot σ τ δ} {callback : Callback} {now : Time.Instant}
    {w : World σ τ δ} (h : bot.Unreached callback now w) :
    (bot.endInstallation callback now w).1.status = 503 := by
  cases h with
  | transport ha he => rw [endInstallation_failed bot ha he]; rfl
  | failed ha he => rw [endInstallation_failed bot ha he]; rfl
  | notSaved hi hs =>
    obtain ⟨code, trace, -, -, he⟩ := hi.answer
    rw [he, hs]
    rfl

theorem installedUrl_isHeaderValue {s : Settings} (h : ∀ c ∈ s.baseUrl.toList, Web.Printed c) :
    Web.isHeaderValue (installedUrl s) = true := by
  obtain ⟨n, hn, -⟩ := Text.dropRunAtEnd_spec '/' s.baseUrl
  apply Web.isHeaderValue_append
  · rw [Web.isHeaderValue_iff]
    intro c hc
    apply h
    rw [hn]
    exact List.mem_append_left _ hc
  · decide +kernel

theorem Keeps.response {bot : Bot σ τ δ} {callback : Callback} {now : Time.Instant}
    {w : World σ τ δ} (hb : ∀ c ∈ bot.settings.baseUrl.toList, Web.Printed c)
    (h : bot.Keeps callback now w) :
    (bot.endInstallation callback now w).1 = ⟨303, none, some (installedUrl bot.settings), ""⟩ := by
  obtain ⟨c, saved, hi, hs⟩ := h
  obtain ⟨code, trace, -, -, he⟩ := hi.answer
  have hurl := installedUrl_isHeaderValue hb
  rw [he, hs]
  simp only [Web.Response.seeOther, hurl, if_true]

/-- Each status has its own reasons. -/
theorem endInstallation_status (bot : Bot σ τ δ)
    (hb : ∀ c ∈ bot.settings.baseUrl.toList, Web.Printed c) (callback : Callback)
    (now : Time.Instant) (w : World σ τ δ) :
    let a := bot.endInstallation callback now w
    (a.1.status = 400 ↔ bot.BadCallback callback now w) ∧
    (a.1.status = 401 ↔ bot.ForeignState callback now) ∧
    (a.1.status = 503 ↔ bot.Unreached callback now w) ∧
    (a.1.status = 303 ↔ bot.Keeps callback now w) := by
  intro a
  have hbad (hc : bot.BadCallback callback now w) : a.1.status = 400 := hc.status_eq
  have hforeign (hc : bot.ForeignState callback now) : a.1.status = 401 := hc.status_eq w
  have hunreached (hc : bot.Unreached callback now w) : a.1.status = 503 := hc.status_eq
  have hkeeps (hc : bot.Keeps callback now w) : a.1.status = 303 :=
    congrArg Web.Response.status (hc.response hb)
  refine ⟨⟨?_, hbad⟩, ⟨?_, hforeign⟩, ⟨?_, hunreached⟩, ⟨?_, hkeeps⟩⟩
  -- one of the four reasons holds, and those of the other three would give another status
  all_goals
    intro hs
    rcases bot.callback_cases callback now w with hc | hc | hc | hc
    · first | exact hc | exact absurd (hs.symm.trans (hbad hc)) (by decide)
    · first | exact hc | exact absurd (hs.symm.trans (hforeign hc)) (by decide)
    · first | exact hc | exact absurd (hs.symm.trans (hunreached hc)) (by decide)
    · first | exact hc | exact absurd (hs.symm.trans (hkeeps hc)) (by decide)

/-- The code of a callback is exchanged exactly when the callback gives a state token that holds,
and a team is saved exactly when Slack grants something for it. The store changes only when the
caller is told of success. -/
theorem callback_gate (bot : Bot σ τ δ)
    (hb : ∀ c ∈ bot.settings.baseUrl.toList, Web.Printed c) (callback : Callback)
    (now : Time.Instant) (w : World σ τ δ) :
    let a := bot.endInstallation callback now w
    let calls := a.2.1.calls
    (∀ code, bot.Admits callback now code → calls = [.oauthAccess
      ⟨bot.settings.clientId, bot.settings.clientSecret, code, bot.settings.validUrl⟩]) ∧
    ((¬ ∃ code, bot.Admits callback now code) → calls = []) ∧
    a.2.2.slack = bot.slack.after calls w.slack ∧
    a.2.2.dice = w.dice ∧
    (∀ c, bot.Installs callback now w c → a.2.2.teams = (bot.store.save c w.teams).2) ∧
    ((¬ ∃ c, bot.Installs callback now w c) → a.2.2.teams = w.teams) ∧
    (a.1.status = 303 ↔ bot.Keeps callback now w) ∧
    (a.1.status = 303 → ∃ root n, bot.settings.baseUrl.toList = root ++ List.replicate n '/' ∧
      root.getLast? ≠ some '/' ∧
      a.1 = ⟨303, none, some (String.ofList root ++ "?success=1"), ""⟩) ∧
    (a.1.status ≠ 303 → ∀ same, bot.store.Atomic same → same w.teams a.2.2.teams) ∧
    Team.Repository.store.Atomic Team.Repository.Same ∧
    (a.1.status = 400 ↔ bot.BadCallback callback now w) ∧
    (a.1.status = 401 ↔ bot.ForeignState callback now) ∧
    (a.1.status = 503 ↔ bot.Unreached callback now w) := by
  intro a calls
  have hinstalls (c : Team.Credentials) (hi : bot.Installs callback now w c) :
      a.2.2.teams = (bot.store.save c w.teams).2 := by
    obtain ⟨code, trace, -, -, he⟩ := hi.answer
    exact congrArg (fun a => a.2.2.teams) he
  have hidle (hn : ¬ ∃ c, bot.Installs callback now w c) : a.2.2.teams = w.teams := by
    obtain ⟨status, said, trace, w', he, ht⟩ := endInstallation_not_installs hn
    exact (congrArg (fun a => a.2.2.teams) he).trans ht
  obtain ⟨hslack, hdice⟩ := endInstallation_frame bot callback now w
  obtain ⟨h400, h401, h503, h303⟩ := endInstallation_status bot hb callback now w
  refine ⟨?_, ?_, hslack, hdice, hinstalls, hidle, h303, ?_, ?_, Team.Repository.store_atomic, h400,
    h401, h503⟩
  · intro code ha
    obtain ⟨response, trace, teams, he, hc⟩ := ha.calls w
    exact (congrArg (fun a => a.2.1.calls) he).trans hc
  · intro hn
    obtain ⟨response, trace, he, hc⟩ := endInstallation_not_admits w hn
    exact (congrArg (fun a => a.2.1.calls) he).trans hc
  · intro hs
    obtain ⟨n, hn, hl⟩ := Text.dropRunAtEnd_spec '/' bot.settings.baseUrl
    refine ⟨_, n, hn, hl, ?_⟩
    rw [String.ofList_toList]
    exact (h303.mp hs).response hb
  · intro hs same hatomic
    by_cases hi : ∃ c, bot.Installs callback now w c
    · obtain ⟨c, hi⟩ := hi
      rw [hinstalls c hi]
      cases hsave : (bot.store.save c w.teams).1 with
      | error error => exact hatomic.failed c w.teams error hsave
      | ok saved => exact absurd (h303.mpr ⟨c, saved, hi, hsave⟩) hs
    · rw [hidle hi]
      exact hatomic.refl w.teams

/-- A bot with its usual settings, and a Slack that grants everyone the same. -/
def generous (grant : Slack.Grant) : Bot Unit Team.Repository Unit where
  settings := .usual
  slack := ⟨fun _ s => (.ok ⟨grant.teamId, ""⟩, s), fun _ _ s => (.ok (), s),
    fun _ s => (.ok grant, s)⟩
  store := Team.Repository.store
  dice := ⟨fun _ s => (1, s)⟩
  database := none

/-- A callback at the last moment for its token, to a bot that is installed in another team and
whose address ends in slashes. -/
theorem callback_gate_saved :
    let s : Settings := { Settings.usual with
      baseUrl := "https://bot.example//"
      clientId := "id"
      clientSecret := "secret" }
    let bot : Bot Unit Team.Repository Unit :=
      { generous ⟨"xoxp", " T1 ", "B1", "xoxb"⟩ with settings := s }
    let other : Team.Credentials := ⟨⟨"T2"⟩, "xoxp-2", "B2", "xoxb-2", ⟨9, 0⟩, ⟨9, 0⟩⟩
    let w : World Unit Team.Repository Unit := ⟨(), .memory [other], ()⟩
    let now : Time.Instant := ⟨3600, 5⟩
    let callback : Callback := ⟨some ((signer s).issue ⟨0, 0⟩), some "code", none⟩
    let a := bot.endInstallation callback now w
    (∀ c ∈ s.baseUrl.toList, Web.Printed c) ∧
    a.2.1.calls = [.oauthAccess ⟨"id", "secret", "code", "https://bot.example/validate"⟩] ∧
    a.2.2.teams = .memory [other, ⟨⟨"T1"⟩, "xoxp", "B1", "xoxb", now, now⟩] ∧
    a.1 = ⟨303, none, some "https://bot.example?success=1", ""⟩ := by
  intro s bot other w now callback
  have hb : ∀ c ∈ s.baseUrl.toList, Web.Printed c :=
    (Web.isHeaderValue_iff _).mp (by decide +kernel)
  have hverify : (signer s).verify ((signer s).issue ⟨0, 0⟩) now = .ok ⟨0, 0⟩ :=
    Install.Signer.verify_issue_ok "id" "secret" (by decide) (by decide) (by decide)
  have hstate : (signer s).issue ⟨0, 0⟩ ≠ "" := by
    intro he
    rw [he] at hverify
    cases hverify
  have hadmits : bot.Admits callback now "code" :=
    ⟨_, ⟨0, 0⟩, ⟨rfl, hstate, rfl, by decide⟩, hverify⟩
  have hinstalls : bot.Installs callback now w ⟨⟨"T1"⟩, "xoxp", "B1", "xoxb", now, now⟩ :=
    ⟨"code", ⟨"xoxp", " T1 ", "B1", "xoxb"⟩, ⟨"T1"⟩, hadmits, rfl, by decide, rfl⟩
  have hkeeps : bot.Keeps callback now w := ⟨_, .inserted, hinstalls, by decide⟩
  have hvalid : s.validUrl = "https://bot.example/validate" := by decide +kernel
  have hgate := callback_gate bot hb callback now w
  -- what the answer is follows from the theorem alone, without the signature of the token
  generalize bot.endInstallation callback now w = a at hgate ⊢
  obtain ⟨hcalls, -, -, -, hteams, -, hsaved, hredirect, -⟩ := hgate
  obtain ⟨root, n, hroot, hlast, hresponse⟩ := hredirect (hsaved.mpr hkeeps)
  have hrooted : root = "https://bot.example".toList := by
    rw [← Text.rdropWhile_append_replicate hlast n, ← hroot]
    decide +kernel
  refine ⟨hb, ?_, ?_, ?_⟩
  · rw [hcalls "code" hadmits]
    exact congrArg (fun url => [Slack.Call.oauthAccess ⟨"id", "secret", "code", url⟩]) hvalid
  · rw [hteams _ hinstalls]
    rfl
  · rw [hresponse, hrooted]
    rfl

end Bot
end DiceBot.Server
