import DiceBot.Slack.Delivery

/-!
What Slack has been asked after a trace of calls. Since Slack may be anything, one that writes down
what it is asked included, a handler that leaves Slack in the state after a list of calls has made
these calls, in this order, and no others.
-/

namespace DiceBot.Slack

variable {σ : Type}

namespace Api

/-- The state of Slack after one call. -/
def afterCall (api : Api σ) (s : σ) : Call → σ
  | .authTest token => (api.authTest token s).2
  | .postMessage token message => (api.postMessage token message s).2
  | .oauthAccess request => (api.oauthAccess request s).2

/-- The state of Slack after calls one after another. -/
def after (api : Api σ) (calls : List Call) (s : σ) : σ := calls.foldl api.afterCall s

@[simp] theorem after_nil (api : Api σ) (s : σ) : api.after [] s = s := rfl

@[simp] theorem after_cons (api : Api σ) (c : Call) (calls : List Call) (s : σ) :
    api.after (c :: calls) s = api.after calls (api.afterCall s c) := rfl

theorem after_append (api : Api σ) (a b : List Call) (s : σ) :
    api.after (a ++ b) s = api.after b (api.after a s) := List.foldl_append

end Api

theorem Trace.append_assoc (a b c : Trace) : a ++ b ++ c = a ++ (b ++ c) := by
  change Trace.mk _ _ = Trace.mk _ _
  simp only [Trace.append_calls, Trace.append_events, List.append_assoc]

@[simp] theorem Trace.calls_empty : Trace.empty.calls = [] := rfl
@[simp] theorem Trace.calls_ofCall (c : Call) : (Trace.ofCall c).calls = [c] := rfl
@[simp] theorem Trace.calls_info (name : String) : (Trace.info name).calls = [] := rfl
@[simp] theorem Trace.calls_warn (name : String) : (Trace.warn name).calls = [] := rfl
@[simp] theorem Trace.calls_error (name : String) : (Trace.error name).calls = [] := rfl

/-- The checks of the two tokens of a team. -/
def checks (team : Team.Credentials) : List Call :=
  [.authTest team.token, .authTest team.botToken]

/-- Slack takes the token of the user and then that of the bot. -/
structure Vouches (api : Api σ) (team : Team.Credentials) (s : σ) : Prop where
  user : ∃ who, (api.authTest team.token s).1 = .ok who
  bot : ∃ who, (api.authTest team.botToken (api.after [.authTest team.token] s)).1 = .ok who

/-- Tokens are tried up to the first that Slack does not take. -/
theorem tokensValid_calls (api : Api σ) (tokens : List String) (s : σ) :
    (tokensValid api tokens s).2.1.calls <+: tokens.map .authTest ∧
    (tokensValid api tokens s).2.2 = api.after (tokensValid api tokens s).2.1.calls s ∧
    ((tokensValid api tokens s).1 = true →
      (tokensValid api tokens s).2.1.calls = tokens.map .authTest) := by
  induction tokens generalizing s with
  | nil => exact ⟨List.prefix_rfl, rfl, fun _ => rfl⟩
  | cons token tokens ih =>
    cases h : api.authTest token s with
    | mk answer s' =>
    cases answer with
    | error e =>
      simp [tokensValid, h, Api.afterCall]
    | ok who =>
      obtain ⟨hp, hs, hv⟩ := ih s'
      simp only [tokensValid, h, Trace.append_calls, Trace.calls_ofCall, List.singleton_append,
        List.map_cons]
      refine ⟨(List.prefix_cons_inj _).mpr hp, ?_, fun hvalid => by rw [hv hvalid]⟩
      rw [hs, Api.after_cons, Api.afterCall, h]

theorem credentialsValid_iff (api : Api σ) (team : Team.Credentials) (s : σ) :
    (credentialsValid api team s).1 = true ↔ Vouches api team s := by
  cases h : api.authTest team.token s with
  | mk answer s' =>
  cases h' : api.authTest team.botToken s' with
  | mk answer' s'' =>
  constructor
  · intro hv
    cases answer <;> cases answer' <;> simp [credentialsValid, tokensValid, h, h'] at hv
    exact ⟨⟨_, congrArg Prod.fst h⟩, ⟨_, by simp [Api.afterCall, h, h']; rfl⟩⟩
  · rintro ⟨⟨who, hu⟩, ⟨who', hb⟩⟩
    simp only [Api.after_cons, Api.after_nil, Api.afterCall, h, h'] at hu hb
    subst hu hb
    simp [credentialsValid, tokensValid, h, h']

theorem Vouches.calls {api : Api σ} {team : Team.Credentials} {s : σ} (h : Vouches api team s) :
    (credentialsValid api team s).2.1.calls = checks team :=
  (tokensValid_calls api [team.token, team.botToken] s).2.2 ((credentialsValid_iff api team s).mpr h)

theorem credentialsValid_calls (api : Api σ) (team : Team.Credentials) (s : σ) :
    (credentialsValid api team s).2.1.calls <+: checks team :=
  (tokensValid_calls api [team.token, team.botToken] s).1

theorem credentialsValid_state (api : Api σ) (team : Team.Credentials) (s : σ) :
    (credentialsValid api team s).2.2 =
      api.after (credentialsValid api team s).2.1.calls s :=
  (tokensValid_calls api [team.token, team.botToken] s).2.1

/-- A delivery is one call, and it succeeds as that call does. -/
theorem deliver_eq (api : Api σ) (team : Team.Credentials) (channel text : String) (face : BotFace)
    (s : σ) :
    let message : Message := ⟨channel, text, face.username, face.icon⟩
    let d := deliver api team channel text face s
    d.2.1.calls = [.postMessage team.botToken message] ∧
    d.2.2 = api.after [.postMessage team.botToken message] s ∧
    (d.1 = .ok () ↔ (api.postMessage team.botToken message s).1 = .ok ()) := by
  dsimp only
  cases h : api.postMessage team.botToken ⟨channel, text, face.username, face.icon⟩ s with
  | mk answer s' =>
  cases answer <;> simp [deliver, h, Api.afterCall]

end DiceBot.Slack
