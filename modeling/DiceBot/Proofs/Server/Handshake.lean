import DiceBot.Proofs.Install.StateToken
import DiceBot.Proofs.Server.CallbackGate
import DiceBot.Proofs.Web.Url
import DiceBot.Server.Routes
import Mathlib.Data.List.Permutation

/-!
The two halves of an installation fit together: what the caller is sent away with reads as it was
meant, and what the caller brings back is let through.
-/

namespace DiceBot.Time

/-- The whole seconds that pass between two instants. -/
def Instant.wholeSecondsTo (t now : Instant) : Int :=
  ((now.seconds - t.seconds) * 1000000000 + (now.nanos - t.nanos)) / 1000000000

end DiceBot.Time

namespace DiceBot.Server

open Time (Instant)
open Web (Request Response)

variable {σ τ δ : Type}

/-- A redirect to an address with more pairs is one that the caller can follow and read. -/
theorem seeOther_withPairs {text : String} {url : Web.Url} (h : Web.Url.parse? text = some url)
    (pairs : List (String × String)) :
    ∃ location, Response.seeOther (url.withPairs pairs).write = ⟨303, none, some location, ""⟩ ∧
      Web.Form.decodePairs (Request.splitTarget location).2.toList =
        Web.Form.decodePairs (url.query.getD []) ++ pairs := by
  have hwritten : (url.withPairs pairs).Written := (Web.Url.written_of_parse? h).withPairs pairs
  refine ⟨_, if_pos hwritten.isHeaderValue, ?_⟩
  rw [hwritten.splitTarget, String.toList_ofList, Web.Url.decodePairs_withPairs]

/-- A callback brings a state and a code in either order. -/
theorem Callback.ofQuery?_encodePairs {state code : String} {pairs : List (String × String)}
    (h : pairs.Perm [("state", state), ("code", code)]) :
    Callback.ofQuery? (String.ofList (Web.Form.encodePairs pairs)) =
      some ⟨some state, some code, none⟩ := by
  unfold Callback.ofQuery?
  rw [String.toList_ofList, Web.Form.decodePairs_encodePairs]
  rcases List.perm_pair.mp h with rfl | rfl <;> rfl

namespace Bot

theorem respond_authenticate (bot : Bot σ τ δ) {r : Request} (hm : r.method = "GET")
    (hp : r.path = "/authenticate") (now : Instant) (w : World σ τ δ) :
    bot.respond now r w =
      ((beginInstallation bot.settings now).1, (beginInstallation bot.settings now).2, w) := by
  have hroute : Route.find bot.database.isSome "GET" "/authenticate" = .ok .authenticate := by
    cases bot.database <;> rfl
  unfold respond
  rw [hm, hp, hroute]
  rfl

theorem respond_validate (bot : Bot σ τ δ) {r : Request} (hm : r.method = "GET")
    (hp : r.path = "/validate") {callback : Callback}
    (hq : Callback.ofQuery? r.query = some callback) (now : Instant) (w : World σ τ δ) :
    bot.respond now r w = bot.endInstallation callback now w := by
  have hroute : Route.find bot.database.isSome "GET" "/validate" = .ok .validate := by
    cases bot.database <;> rfl
  unfold respond
  rw [hm, hp, hroute]
  simp only [answerRoute, hq]
  rfl

/-- Whoever starts an installation is sent to Slack with pairs that read as the settings have them,
behind those of the address itself. Whoever comes back with the state that was given out, while its
second is not too far back, has the code exchanged, with the same client and the same address. -/
theorem handshake (bot : Bot σ τ δ) {url : Web.Url}
    (hurl : Web.Url.parse? bot.settings.oauthUrl = some url) {t : Instant}
    (h : Time.earliest ≤ t.seconds) (h' : t.seconds ≤ Time.latest) :
    let s := bot.settings
    let token := (signer s).issue t
    (∀ r w, r.method = "GET" → r.path = "/authenticate" →
      ∃ location, (bot.respond t r w).1 = ⟨303, none, some location, ""⟩ ∧
        Web.Form.decodePairs (Request.splitTarget location).2.toList =
          Web.Form.decodePairs (url.query.getD []) ++
            [("client_id", s.clientId), ("redirect_uri", s.validUrl),
              ("scope", " ".intercalate s.scopes), ("state", token)]) ∧
    ∀ now : Instant, now.seconds - t.seconds ≤ s.stateMaxAge →
      (signer s).verify token now = .ok ⟨t.seconds, 0⟩ ∧
      ∀ code pairs r w, code ≠ "" → pairs.Perm [("state", token), ("code", code)] →
        r.method = "GET" → r.path = "/validate" →
        r.query = String.ofList (Web.Form.encodePairs pairs) →
        (bot.respond now r w).2.1.calls =
          [.oauthAccess ⟨s.clientId, s.clientSecret, code, s.validUrl⟩] := by
  intro s token
  refine ⟨?_, fun now hage => ?_⟩
  · intro r w hm hp
    rw [bot.respond_authenticate hm hp, beginInstallation, hurl]
    exact seeOther_withPairs hurl (installPairs s t)
  · have hverify : (signer s).verify token now = .ok ⟨t.seconds, 0⟩ :=
      Install.Signer.verify_issue_ok s.clientId s.clientSecret h h' hage
    refine ⟨hverify, ?_⟩
    intro code pairs r w hcode hpairs hm hp hq
    have htoken : token ≠ "" := by
      intro he
      have hread := (signer s).read?_issue h h'
      rw [show (signer s).issue t = "" from he] at hread
      cases hread
    have hadmits : bot.Admits ⟨some token, some code, none⟩ now code :=
      ⟨token, _, ⟨rfl, htoken, rfl, hcode⟩, hverify⟩
    have hcallback : Callback.ofQuery? r.query = some ⟨some token, some code, none⟩ := by
      rw [hq]
      exact Callback.ofQuery?_encodePairs hpairs
    obtain ⟨response, trace, teams, he, hcalls⟩ := hadmits.calls w
    rw [bot.respond_validate hm hp hcallback, he]
    exact hcalls

/-- Settings and a code that are full of marks, with pairs in the address of Slack. -/
theorem handshake_marks :
    let s : Settings := { Settings.usual with
      baseUrl := "https://bot.example/#/"
      oauthUrl := "https://slack.com/oauth/v2/authorize?team=A%26B&x#top"
      clientId := "1=2&3 ü"
      clientSecret := "secret"
      scopes := ["commands", "chat:write+%"] }
    let bot : Bot Unit Team.Repository Unit := ⟨s, Slack.client Slack.unreachable "",
      Team.Repository.store, ⟨fun _ _ => (1, ())⟩, none⟩
    let w : World Unit Team.Repository Unit := ⟨(), .memory [], ()⟩
    let t : Instant := ⟨1700000000, 900000000⟩
    let now : Instant := ⟨1700003600, 999999999⟩
    let token := (signer s).issue t
    (Time.earliest ≤ t.seconds ∧ t.seconds ≤ Time.latest ∧
      now.seconds - t.seconds ≤ s.stateMaxAge) ∧
    (∃ location, (bot.respond t ⟨"GET", "/authenticate", "", none, ""⟩ w).1 =
        ⟨303, none, some location, ""⟩ ∧
      Web.Form.decodePairs (Request.splitTarget location).2.toList =
        [("team", "A&B"), ("x", ""), ("client_id", "1=2&3 ü"),
          ("redirect_uri", "https://bot.example/#/validate"), ("scope", "commands chat:write+%"),
          ("state", token)]) ∧
    (bot.respond now ⟨"GET", "/validate", String.ofList
        (Web.Form.encodePairs [("code", "a&b=#"), ("state", token)]), none, ""⟩ w).2.1.calls =
      [.oauthAccess ⟨"1=2&3 ü", "secret", "a&b=#", "https://bot.example/#/validate"⟩] := by
  intro s bot w t now token
  have hrange : Time.earliest ≤ t.seconds ∧ t.seconds ≤ Time.latest ∧
      now.seconds - t.seconds ≤ s.stateMaxAge := by decide
  have hurl : Web.Url.parse? s.oauthUrl = some ⟨"https".toList, [], [], some "slack.com".toList,
      none, .segments ["oauth".toList, "v2".toList, "authorize".toList], some "team=A%26B&x".toList,
      some "top".toList⟩ := by decide +kernel
  have hpairs : Web.Form.decodePairs "team=A%26B&x".toList = [("team", "A&B"), ("x", "")] := by
    decide +kernel
  have hvalid : s.validUrl = "https://bot.example/#/validate" := by decide +kernel
  have hscope : " ".intercalate s.scopes = "commands chat:write+%" := by decide +kernel
  obtain ⟨hstart, hend⟩ := handshake bot hurl hrange.1 hrange.2.1
  refine ⟨hrange, ?_, ?_⟩
  · obtain ⟨location, hr, hl⟩ := hstart ⟨"GET", "/authenticate", "", none, ""⟩ w rfl rfl
    refine ⟨location, hr, hl.trans ?_⟩
    rw [Option.getD_some, hpairs, hvalid, hscope]
    rfl
  · have hcalls := (hend now hrange.2.2).2 "a&b=#" [("code", "a&b=#"), ("state", token)]
      ⟨"GET", "/validate", String.ofList
        (Web.Form.encodePairs [("code", "a&b=#"), ("state", token)]), none, ""⟩ w (by decide)
      (List.Perm.swap _ _ []) rfl rfl rfl
    rw [hvalid] at hcalls
    exact hcalls

/-- Only the second of the issue counts, so that a token given out late in its second is refused
although no more whole seconds have passed than it may be old. -/
theorem handshake_fraction :
    let s : Settings := { Settings.usual with clientId := "id", clientSecret := "secret" }
    let bot : Bot Unit Team.Repository Unit := ⟨s, Slack.client Slack.unreachable "",
      Team.Repository.store, ⟨fun _ _ => (1, ())⟩, none⟩
    let w : World Unit Team.Repository Unit := ⟨(), .memory [], ()⟩
    let t : Instant := ⟨0, 900000000⟩
    let now : Instant := ⟨3601, 0⟩
    let token := (signer s).issue t
    let r : Request := ⟨"GET", "/validate", String.ofList
      (Web.Form.encodePairs [("state", token), ("code", "code")]), none, ""⟩
    t.wholeSecondsTo now ≤ s.stateMaxAge ∧
    (signer s).verify token now = .error (.expired 3601) ∧
    (bot.respond now r w).1.status = 400 ∧ (bot.respond now r w).2.1.calls = [] := by
  intro s bot w t now token r
  have hlate : Install.differenceWithin now.seconds t.seconds > (signer s).maxAge := by decide
  have hage : Install.differenceWithin now.seconds t.seconds = 3601 := by decide
  have hverify : (signer s).verify token now = .error (.expired 3601) := by
    rw [Install.Signer.verify_issue _ (by decide) (by decide), if_pos hlate, hage]
  have htoken : token ≠ "" := by
    intro he
    rw [he] at hverify
    cases hverify
  have hquery : Callback.ofQuery? r.query = some ⟨some token, some "code", none⟩ :=
    Callback.ofQuery?_encodePairs (List.Perm.refl _)
  have hgives : Callback.Gives ⟨some token, some "code", none⟩ token "code" :=
    ⟨rfl, htoken, rfl, by decide⟩
  rw [bot.respond_validate rfl rfl hquery, bot.endInstallation_refused w hgives hverify]
  exact ⟨by decide, hverify, rfl, rfl⟩

end Bot
end DiceBot.Server
