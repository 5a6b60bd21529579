import DiceBot.Proofs.Slack.Calls
import Mathlib.Data.List.Forall2

/-!
What Slack answers in a run, and two runs whose answers are the same but for the tokens in grants:
as long as they are, the bot asks the same things with whatever tokens it has.
-/

namespace DiceBot.Slack

variable {σ σ' : Type}

/-- An answer of Slack, whatever it was asked. -/
inductive Said where
  | identity (answer : Except ApiError Identity)
  | posted (answer : Except ApiError Unit)
  | granted (answer : Except ApiError Grant)

namespace Api

def say (api : Api σ) (s : σ) : Call → Said
  | .authTest token => .identity (api.authTest token s).1
  | .postMessage token message => .posted (api.postMessage token message s).1
  | .oauthAccess request => .granted (api.oauthAccess request s).1

/-- The answers to calls one after another. -/
def answers (api : Api σ) : List Call → σ → List Said
  | [], _ => []
  | c :: calls, s => api.say s c :: api.answers calls (api.afterCall s c)

@[simp] theorem length_answers (api : Api σ) (calls : List Call) (s : σ) :
    (api.answers calls s).length = calls.length := by
  induction calls generalizing s with
  | nil => rfl
  | cons c calls ih => simp [answers, ih]

theorem answers_append (api : Api σ) (a b : List Call) (s : σ) :
    api.answers (a ++ b) s = api.answers a s ++ api.answers b (api.after a s) := by
  induction a generalizing s with
  | nil => rfl
  | cons c a ih => simp [answers, ih]

end Api

/-- The same answers, but for the tokens of a grant. -/
inductive Said.Alike : Said → Said → Prop where
  | same (said : Said) : Alike said said
  | granted {grant grant' : Grant} (team : grant.teamId = grant'.teamId)
      (bot : grant.botUserId = grant'.botUserId) :
      Alike (.granted (.ok grant)) (.granted (.ok grant'))

/-- The same calls, but for the tokens that they are made with. -/
inductive Call.Alike : Call → Call → Prop where
  | authTest (token token' : String) : Alike (.authTest token) (.authTest token')
  | postMessage (token token' : String) (message : Message) :
      Alike (.postMessage token message) (.postMessage token' message)
  | oauthAccess (request : ExchangeRequest) : Alike (.oauthAccess request) (.oauthAccess request)

/-- Answers to two lists of calls that are alike as far as both lists go. -/
def Agree (answers answers' : List Said) : Prop :=
  ∀ pair ∈ answers.zip answers', pair.1.Alike pair.2

theorem Agree.head {said said' : Said} {rest rest' : List Said}
    (h : Agree (said :: rest) (said' :: rest')) : said.Alike said' :=
  h (said, said') List.mem_cons_self

theorem Agree.tail {said said' : Said} {rest rest' : List Said}
    (h : Agree (said :: rest) (said' :: rest')) : Agree rest rest' :=
  fun pair hp => h pair (List.mem_cons_of_mem _ hp)

theorem Agree.left {a b a' b' : List Said} (h : Agree (a ++ b) (a' ++ b')) : Agree a a' := by
  induction a generalizing a' with
  | nil => exact fun _ hp => absurd hp List.not_mem_nil
  | cons said a ih =>
    cases a' with
    | nil => exact fun _ hp => absurd hp List.not_mem_nil
    | cons said' a' =>
      intro pair hp
      rcases List.mem_cons.mp hp with rfl | hp
      · exact h.head
      · exact ih h.tail pair hp

theorem Agree.right {a b a' b' : List Said} (hl : a.length = a'.length)
    (h : Agree (a ++ b) (a' ++ b')) : Agree b b' := by
  intro pair hp
  refine h pair ?_
  rw [List.zip_append hl]
  exact List.mem_append_right _ hp

theorem Agree.calls_left {api : Api σ} {api' : Api σ'} {s : σ} {s' : σ'} {a b a' b' : List Call}
    (h : Agree (api.answers (a ++ b) s) (api'.answers (a' ++ b') s')) :
    Agree (api.answers a s) (api'.answers a' s') := by
  rw [Api.answers_append, Api.answers_append] at h
  exact h.left

theorem Agree.calls_right {api : Api σ} {api' : Api σ'} {s : σ} {s' : σ'} {a b a' b' : List Call}
    (hl : a.length = a'.length)
    (h : Agree (api.answers (a ++ b) s) (api'.answers (a' ++ b') s')) :
    Agree (api.answers b (api.after a s)) (api'.answers b' (api'.after a' s')) := by
  rw [Api.answers_append, Api.answers_append] at h
  exact h.right (by rw [Api.length_answers, Api.length_answers, hl])

/-- The calls of two runs can be told apart by their tokens at most. -/
abbrev CallsAlike (calls calls' : List Call) : Prop := List.Forall₂ Call.Alike calls calls'

theorem CallsAlike.append {a a' b b' : List Call} (h : CallsAlike a a') (h' : CallsAlike b b') :
    CallsAlike (a ++ b) (a' ++ b') := List.rel_append h h'

theorem Said.Alike.identity {answer answer' : Except ApiError Identity}
    (h : (Said.identity answer).Alike (.identity answer')) : answer = answer' := by
  cases h
  rfl

theorem Said.Alike.posted {answer answer' : Except ApiError Unit}
    (h : (Said.posted answer).Alike (.posted answer')) : answer = answer' := by
  cases h
  rfl

/-- Grants that are alike are refused with the same error, or both given to the same bot of the same
team. -/
theorem Said.Alike.grants {answer answer' : Except ApiError Grant}
    (h : (Said.granted answer).Alike (.granted answer')) :
    (∃ error, answer = .error error ∧ answer' = .error error) ∨
    ∃ grant grant', answer = .ok grant ∧ answer' = .ok grant' ∧ grant.teamId = grant'.teamId ∧
      grant.botUserId = grant'.botUserId := by
  cases h with
  | same =>
    cases answer with
    | error error => exact .inl ⟨error, rfl, rfl⟩
    | ok grant => exact .inr ⟨grant, grant, rfl, rfl, rfl, rfl⟩
  | granted team bot => exact .inr ⟨_, _, rfl, rfl, team, bot⟩

section

variable {api : Api σ} {api' : Api σ'} {s : σ} {s' : σ'}

/-- Two lists of tokens of one length are tried alike. -/
theorem tokensValid_alike {tokens tokens' : List String} (hl : tokens.length = tokens'.length)
    (h : Agree (api.answers (tokensValid api tokens s).2.1.calls s)
      (api'.answers (tokensValid api' tokens' s').2.1.calls s')) :
    (tokensValid api tokens s).1 = (tokensValid api' tokens' s').1 ∧
      CallsAlike (tokensValid api tokens s).2.1.calls (tokensValid api' tokens' s').2.1.calls := by
  induction tokens generalizing tokens' s s' with
  | nil =>
    cases tokens' with
    | nil => exact ⟨rfl, .nil⟩
    | cons token' tokens' => cases hl
  | cons token tokens ih =>
    cases tokens' with
    | nil => cases hl
    | cons token' tokens' =>
      have hcall : (Call.authTest token).Alike (.authTest token') := .authTest token token'
      cases ha : api.authTest token s with
      | mk answer t =>
      cases ha' : api'.authTest token' s' with
      | mk answer' t' =>
      cases answer with
      | error error =>
        cases answer' with
        | error error' =>
          simp only [tokensValid, ha, ha']
          exact ⟨trivial, .cons hcall .nil⟩
        | ok who' =>
          simp only [tokensValid, ha, ha', Trace.append_calls, Trace.calls_ofCall] at h
          have he := h.head.identity
          rw [ha, ha'] at he
          cases he
      | ok who =>
        cases answer' with
        | error error' =>
          simp only [tokensValid, ha, ha', Trace.append_calls, Trace.calls_ofCall] at h
          have he := h.head.identity
          rw [ha, ha'] at he
          cases he
        | ok who' =>
          simp only [tokensValid, ha, ha', Trace.append_calls, Trace.calls_ofCall,
            List.singleton_append] at h ⊢
          have htail := h.tail
          simp only [Api.afterCall, ha, ha'] at htail
          obtain ⟨hv, hc⟩ := ih (by simpa using hl) htail
          exact ⟨hv, .cons hcall hc⟩

theorem credentialsValid_alike (team team' : Team.Credentials)
    (h : Agree (api.answers (credentialsValid api team s).2.1.calls s)
      (api'.answers (credentialsValid api' team' s').2.1.calls s')) :
    (credentialsValid api team s).1 = (credentialsValid api' team' s').1 ∧
      CallsAlike (credentialsValid api team s).2.1.calls
        (credentialsValid api' team' s').2.1.calls :=
  tokensValid_alike rfl h

/-- A delivery fails alike. -/
theorem deliver_alike (team team' : Team.Credentials) (channel text : String) (face : BotFace)
    (h : Agree (api.answers (deliver api team channel text face s).2.1.calls s)
      (api'.answers (deliver api' team' channel text face s').2.1.calls s')) :
    (deliver api team channel text face s).1 = (deliver api' team' channel text face s').1 ∧
      CallsAlike (deliver api team channel text face s).2.1.calls
        (deliver api' team' channel text face s').2.1.calls := by
  obtain ⟨hcalls, -, -⟩ := deliver_eq api team channel text face s
  obtain ⟨hcalls', -, -⟩ := deliver_eq api' team' channel text face s'
  rw [hcalls, hcalls'] at h ⊢
  refine ⟨?_, .cons (.postMessage _ _ _) .nil⟩
  have he := h.head.posted
  cases ha : api.postMessage team.botToken ⟨channel, text, face.username, face.icon⟩ s with
  | mk answer t =>
  cases ha' : api'.postMessage team'.botToken ⟨channel, text, face.username, face.icon⟩ s' with
  | mk answer' t' =>
  rw [ha, ha'] at he
  dsimp only at he
  subst he
  cases answer <;> simp only [deliver, ha, ha']

end

end DiceBot.Slack
