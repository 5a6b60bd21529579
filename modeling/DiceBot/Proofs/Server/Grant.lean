import DiceBot.Proofs.Server.CallbackGate
import DiceBot.Proofs.Slack.Reply

/-!
What a reply has to write to be a grant, and that the credentials which a callback saves are those
of such a reply. The tokens of the user and the id of the team are there, but the bot may be written
with empty texts.
-/

namespace DiceBot.Slack

open Json (Field Value)

theorem text?_eq_some_iff {v : Value} {s : String} : v.text? = some s ↔ v = .text s := by
  cases v <;> simp [Value.text?, Value.text]

theorem text?_needed_iff {field : Option Value} {s : String} :
    Json.needed Value.text? field = some s ↔ field = some (.text s) := by
  simp [Json.needed, Option.bind_eq_some_iff, text?_eq_some_iff]

/-- A text that is not empty has to be written. -/
theorem text?_withDefault_iff {field : Option Value} {s : String} (h : s ≠ "") :
    Json.withDefault "" Value.text? field = some s ↔ field = some (.text s) := by
  cases field with
  | none => simpa [Json.withDefault] using h.symm
  | some v => simp [Json.withDefault, text?_eq_some_iff]

/-- The bot user and its token as they are written: in an object, or as an array of the two. -/
inductive BotWritten : Value → String → String → Prop where
  | object {members : List (Option String × Value)} {user token : String}
    (named : ∀ m ∈ members, m.1 ≠ none) (huser : Field members "bot_user_id" (some (.text user)))
    (htoken : Field members "bot_access_token" (some (.text token))) :
    BotWritten (.object members) user token
  | array {user token : String} : BotWritten (.array [.text user, .text token]) user token

theorem botOfJson?_of_fields {v : Value} {user token : String} :
    botOfJson? v = some (user, token) ↔ v.fields? ["bot_user_id", "bot_access_token"] 2 =
      some [some (.text user), some (.text token)] := by
  unfold botOfJson?
  constructor
  · intro h
    obtain ⟨fields, hf, h⟩ := Option.bind_eq_some_iff.mp h
    split at h
    · obtain ⟨user', huser, h⟩ := Option.bind_eq_some_iff.mp h
      obtain ⟨token', htoken, h⟩ := Option.bind_eq_some_iff.mp h
      cases h
      rw [hf, text?_needed_iff.mp huser, text?_needed_iff.mp htoken]
    · cases h
  · intro hf
    simp only [hf, Option.bind_eq_bind, Option.bind_some, text?_needed_iff.mpr rfl]
    rfl

theorem botOfJson?_eq_some_iff {v : Value} {user token : String} :
    botOfJson? v = some (user, token) ↔ BotWritten v user token := by
  rw [botOfJson?_of_fields]
  constructor
  · intro hf
    cases v with
    | object members =>
      obtain ⟨named, hfields⟩ := Value.fields?_object_iff.mp hf
      obtain ⟨huser, hfields⟩ := List.forall₂_cons.mp hfields
      exact .object named huser (List.forall₂_cons.mp hfields).1
    | array items =>
      match items with
      | [] => cases hf
      | [user] => cases hf
      | [user, token] =>
        cases hf
        exact .array
      | user :: token :: more :: items =>
        have hlong : ["bot_user_id", "bot_access_token"].length <
            (user :: token :: more :: items).length :=
          Nat.le_add_left 3 items.length
        rw [Value.fields?_array_long hlong] at hf
        cases hf
    | _ => cases hf
  · intro h
    cases h with
    | object named huser htoken =>
      exact Value.fields?_object_iff.mpr ⟨named, .cons huser (.cons htoken .nil)⟩
    | array => rfl

/-- Where null is no value of its own, a value is given by what is not null. -/
theorem nullable?_eq_some_iff {α : Type} {item : Value → Option α} (h : item .null = none)
    {v : Value} {a : α} : v.nullable? item = some (some a) ↔ item v = some a := by
  cases v <;> simp [Value.nullable?, h]

theorem bot_withDefault_iff {field : Option Value} {user token : String} :
    Json.withDefault none (Value.nullable? botOfJson?) field = some (some (user, token)) ↔
      ∃ v, field = some v ∧ BotWritten v user token := by
  cases field with
  | none => simp [Json.withDefault]
  | some v =>
    rw [Json.withDefault, nullable?_eq_some_iff (show botOfJson? .null = none from rfl),
      botOfJson?_eq_some_iff]
    simp

/-- The members of an object that grants: it approves, gives a token and a team that are not empty,
and a bot. -/
structure GrantWritten (members : List (Option String × Value)) (g : Grant) : Prop where
  named : ∀ m ∈ members, m.1 ≠ none
  ok : Field members "ok" (some (.bool true))
  error : ∃ field reason, Field members "error" field ∧ Reason field reason
  token : Field members "access_token" (some (.text g.accessToken))
  team : Field members "team_id" (some (.text g.teamId))
  bot : ∃ v, Field members "bot" (some v) ∧ BotWritten v g.botUserId g.botAccessToken
  token_ne : g.accessToken ≠ ""
  team_ne : g.teamId ≠ ""

/-- No text of the grant is empty. -/
structure Grant.Complete (g : Grant) : Prop where
  accessToken : g.accessToken ≠ ""
  teamId : g.teamId ≠ ""
  botUserId : g.botUserId ≠ ""
  botAccessToken : g.botAccessToken ≠ ""

theorem Exchange.grant_eq_ok_iff {e : Exchange} {g : Grant} : e.grant = .ok g ↔
    e = ⟨g.accessToken, g.teamId, some (g.botUserId, g.botAccessToken)⟩ ∧
      g.accessToken ≠ "" ∧ g.teamId ≠ "" := by
  constructor
  · intro h
    unfold grant at h
    split at h
    · cases h
    · next user token hbot =>
      split at h
      · cases h
      · next hne =>
        cases h
        obtain ⟨htoken, hteam⟩ := not_or.mp hne
        exact ⟨by rw [← hbot], htoken, hteam⟩
  · rintro ⟨rfl, htoken, hteam⟩
    exact if_neg (not_or.mpr ⟨htoken, hteam⟩)

theorem Exchange.ofJson?_object_iff {members : List (Option String × Value)} {g : Grant}
    (htoken : g.accessToken ≠ "") (hteam : g.teamId ≠ "") :
    Exchange.ofJson? (.object members) =
      some ⟨g.accessToken, g.teamId, some (g.botUserId, g.botAccessToken)⟩ ↔
    (∀ m ∈ members, m.1 ≠ none) ∧ Field members "access_token" (some (.text g.accessToken)) ∧
      Field members "team_id" (some (.text g.teamId)) ∧
      ∃ v, Field members "bot" (some v) ∧ BotWritten v g.botUserId g.botAccessToken := by
  unfold Exchange.ofJson?
  constructor
  · intro h
    obtain ⟨fields, hf, h⟩ := Option.bind_eq_some_iff.mp h
    obtain ⟨named, hfields⟩ := Value.fields?_object_iff.mp hf
    split at h
    · next token team bot =>
      obtain ⟨token', htoken', h⟩ := Option.bind_eq_some_iff.mp h
      obtain ⟨team', hteam', h⟩ := Option.bind_eq_some_iff.mp h
      obtain ⟨bot', hbot', h⟩ := Option.bind_eq_some_iff.mp h
      cases h
      obtain ⟨htokenField, hfields⟩ := List.forall₂_cons.mp hfields
      obtain ⟨hteamField, hfields⟩ := List.forall₂_cons.mp hfields
      obtain ⟨v, rfl, hv⟩ := bot_withDefault_iff.mp hbot'
      rw [(text?_withDefault_iff htoken).mp htoken'] at htokenField
      rw [(text?_withDefault_iff hteam).mp hteam'] at hteamField
      exact ⟨named, htokenField, hteamField, v, (List.forall₂_cons.mp hfields).1, hv⟩
    · cases h
  · rintro ⟨named, htokenField, hteamField, v, hv, hbot⟩
    have hf : (Value.object members).fields? ["access_token", "team_id", "bot"] 0 =
        some [some (.text g.accessToken), some (.text g.teamId), some v] :=
      Value.fields?_object_iff.mpr ⟨named, .cons htokenField (.cons hteamField (.cons hv .nil))⟩
    simp only [hf, Option.bind_eq_bind, Option.bind_some, (text?_withDefault_iff htoken).mpr rfl,
      (text?_withDefault_iff hteam).mpr rfl, bot_withDefault_iff.mpr ⟨v, rfl, hbot⟩]
    rfl

/-- A reply is read as a grant exactly when it is an object that writes one. -/
theorem readGrant_eq_ok_iff {body : String} {g : Grant} : readGrant body = .ok g ↔
    ∃ members, Json.parse? body = some (.object members) ∧ GrantWritten members g := by
  have hread : readGrant body = .ok g ↔ ∃ e, ObjectGives Exchange.ofJson? body e ∧
      e.grant = .ok g :=
    bind_eq_ok_iff.trans (exists_congr fun e =>
      and_congr_left' (Method.read_eq_ok_iff_object Exchange.ofJson?_array))
  rw [hread]
  constructor
  · rintro ⟨e, ⟨members, reason, hparse, hok, henvelope, hcontent⟩, hgrant⟩
    obtain ⟨rfl, htoken, hteam⟩ := Exchange.grant_eq_ok_iff.mp hgrant
    obtain ⟨named, htokenField, hteamField, hbot⟩ :=
      (Exchange.ofJson?_object_iff htoken hteam).mp hcontent
    cases henvelope with
    | object _ _ hfield hreason =>
      exact ⟨members, hparse, named, hok, ⟨_, _, hfield, hreason⟩, htokenField, hteamField, hbot,
        htoken, hteam⟩
  · rintro ⟨members, hparse, h⟩
    obtain ⟨field, reason, hfield, hreason⟩ := h.error
    exact ⟨_, ⟨members, reason, hparse, h.ok, .object h.named h.ok hfield hreason,
      (Exchange.ofJson?_object_iff h.token_ne h.team_ne).mpr ⟨h.named, h.token, h.team, h.bot⟩⟩,
      Exchange.grant_eq_ok_iff.mpr ⟨rfl, h.token_ne, h.team_ne⟩⟩

/-- A call that gives a result had a reply of success, which was read. -/
theorem call_eq_ok {σ α : Type} {carrier : Carrier σ} {baseUrl : String} {m : Method}
    {token : Option String} {pairs : List (String × String)}
    {read : String → Except ApiError α} {s : σ} {a : α}
    (h : (call carrier baseUrl m token pairs read s).1 = .ok a) :
    ∃ post reply s' body, carrier.send post s = (.ok reply, s') ∧ reply.text = .ok body ∧
      read body = .ok a := by
  unfold call at h
  split at h
  · cases h
  · next post hpost =>
    split at h
    · cases h
    · next reply s' hsend =>
      obtain ⟨body, htext, hread⟩ := bind_eq_ok_iff.mp h
      exact ⟨post, reply, s', body, hsend, htext, hread⟩

/-- Slack over HTTP grants what a reply of success writes. -/
theorem client_grants {σ : Type} {carrier : Carrier σ} {baseUrl : String} {r : ExchangeRequest}
    {s : σ} {g : Grant} (h : ((client carrier baseUrl).oauthAccess r s).1 = .ok g) :
    ∃ post reply s' body members, carrier.send post s = (.ok reply, s') ∧ reply.text = .ok body ∧
      Json.parse? body = some (.object members) ∧ GrantWritten members g := by
  have hcall : (call carrier baseUrl .oauthAccess none r.pairs readGrant s).1 = .ok g := h
  obtain ⟨post, reply, s', body, hsend, htext, hread⟩ := call_eq_ok hcall
  obtain ⟨members, hparse, hwritten⟩ := readGrant_eq_ok_iff.mp hread
  exact ⟨post, reply, s', body, members, hsend, htext, hparse, hwritten⟩

end DiceBot.Slack

namespace DiceBot.Server

open Slack (GrantWritten)

theorem text_ne_of_parse {given : String} {team : Team.Id} (h : Team.Id.parse given = .ok team) :
    team.text ≠ "" := by
  simp only [Team.Id.parse] at h
  split at h
  · next hinner =>
    cases h
    exact fun he => hinner.1 (by simpa using congrArg String.toList he)
  · cases h

/-- Credentials as a reply of Slack grants them: with a token and a team, and with the bot as it is
written. -/
def GrantedBy (members : List (Option String × Json.Value)) (c : Team.Credentials) : Prop :=
  ∃ teamId, Team.Id.parse teamId = .ok c.team ∧
    GrantWritten members ⟨c.token, teamId, c.botId, c.botToken⟩

/-- The bot when it talks to Slack over HTTP. -/
def Bot.overHttp {σ τ δ : Type} (bot : Bot σ τ δ) (carrier : Slack.Carrier σ) (baseUrl : String) :
    Bot σ τ δ :=
  { bot with slack := Slack.client carrier baseUrl }

@[simp] theorem Bot.overHttp_slack {σ τ δ : Type} (bot : Bot σ τ δ) (carrier : Slack.Carrier σ)
    (baseUrl : String) : (bot.overHttp carrier baseUrl).slack = Slack.client carrier baseUrl := rfl

@[simp] theorem Bot.overHttp_store {σ τ δ : Type} (bot : Bot σ τ δ) (carrier : Slack.Carrier σ)
    (baseUrl : String) : (bot.overHttp carrier baseUrl).store = bot.store := by
  simp only [overHttp]

/-- What a reply grants is what it writes: a token and a team that are not empty, and a bot. The
grant is complete when the two texts of the bot are not empty either. What a callback saves is what
a reply grants. -/
theorem grants_written {σ τ δ : Type} (bot : Bot σ τ δ) (carrier : Slack.Carrier σ)
    (baseUrl : String) (callback : Callback) (now : Time.Instant) (w : World σ τ δ) (body : String)
    (g : Slack.Grant) :
    (Slack.readGrant body = .ok g ↔
      ∃ members, Json.parse? body = some (.object members) ∧ GrantWritten members g) ∧
    (Slack.readGrant body = .ok g ∧ g.Complete ↔
      (∃ members, Json.parse? body = some (.object members) ∧ GrantWritten members g) ∧
        g.botUserId ≠ "" ∧ g.botAccessToken ≠ "") ∧
    (((bot.overHttp carrier baseUrl).endInstallation callback now w).2.2.teams = w.teams ∨
      ∃ post reply slack said members c, carrier.send post w.slack = (.ok reply, slack) ∧
        reply.text = .ok said ∧ Json.parse? said = some (.object members) ∧
        GrantedBy members c ∧ c.token ≠ "" ∧ c.team.text ≠ "" ∧
        ((bot.overHttp carrier baseUrl).endInstallation callback now w).2.2.teams =
          (bot.store.save c w.teams).2) := by
  refine ⟨Slack.readGrant_eq_ok_iff, ?_, ?_⟩
  · rw [Slack.readGrant_eq_ok_iff]
    constructor
    · rintro ⟨hread, hcomplete⟩
      exact ⟨hread, hcomplete.botUserId, hcomplete.botAccessToken⟩
    · rintro ⟨⟨members, hparse, hwritten⟩, huser, htoken⟩
      exact ⟨⟨members, hparse, hwritten⟩, hwritten.token_ne, hwritten.team_ne, huser, htoken⟩
  · by_cases hi : ∃ c, (bot.overHttp carrier baseUrl).Installs callback now w c
    · obtain ⟨c, hi⟩ := hi
      obtain ⟨code, trace, -, -, he⟩ := hi.answer
      have hteams : ((bot.overHttp carrier baseUrl).endInstallation callback now w).2.2.teams =
          (bot.store.save c w.teams).2 := by
        rw [he, Bot.overHttp_store]
      obtain ⟨code, grant, team, -, hexchanged, hteam, rfl⟩ := hi
      rw [Bot.exchanged, Bot.overHttp_slack] at hexchanged
      obtain ⟨post, reply, slack, said, members, hsend, htext, hparse, hwritten⟩ :=
        Slack.client_grants hexchanged
      exact .inr ⟨post, reply, slack, said, members, _, hsend, htext, hparse,
        ⟨grant.teamId, hteam, hwritten⟩, hwritten.token_ne, text_ne_of_parse hteam, hteams⟩
    · obtain ⟨status, said, trace, w', he, hteams⟩ := Bot.endInstallation_not_installs hi
      exact .inl ((congrArg (fun a => a.2.2.teams) he).trans hteams)

/-- A grant may come without a bot that can be used: its id and its token may be empty texts. -/
theorem grants_written_empty :
    ¬∀ (body : String) (g : Slack.Grant), Slack.readGrant body = .ok g → g.Complete := by
  intro h
  have hread : Slack.readGrant ("\x7b\"ok\":true,\"access_token\":\"xoxp-1\",\"team_id\":\"T1\"," ++
      "\"bot\":\x7b\"bot_user_id\":\"\",\"bot_access_token\":\"\"\x7d\x7d") =
        .ok ⟨"xoxp-1", "T1", "", ""⟩ := by
    decide +kernel
  exact (h _ _ hread).botUserId rfl

end DiceBot.Server
