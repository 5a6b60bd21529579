import DiceBot.Slack.Api
import DiceBot.Web.Http
import DiceBot.Web.Url

/-!
Slack over HTTP: each operation is a form that is sent to an address of its own, and the reply that
comes back.
-/

namespace DiceBot.Slack

/-- A form that is sent, with the value of its header `Authorization`. -/
structure Post where
  url : Web.Url
  authorization : Option String
  body : String
  deriving DecidableEq, Repr

structure PostReply where
  status : Nat
  body : List UInt8
  deriving DecidableEq, Repr

/-- A way to send forms, which may fail. -/
structure Carrier (σ : Type) where
  send : Post → σ → Except String PostReply × σ

/-- The form of a method. There is none if the address is no address or the token fits no header. -/
def Post.of? (baseUrl : String) (m : Method) (token : Option String)
    (pairs : List (String × String)) : Option Post := do
  let url ← Web.Url.parse? (Text.dropRunAtEnd '/' baseUrl ++ "/" ++ m.name)
  let authorization := token.map ("Bearer " ++ ·)
  if url.host.isNone ∨ !authorization.all Web.isHeaderValue then none
  else some ⟨url, authorization, String.ofList (Web.Form.encodePairs pairs)⟩

/-- The text of a reply of success. One with the status 204 has none. -/
def PostReply.text (r : PostReply) : Except ApiError String :=
  if r.status < 200 ∨ 300 ≤ r.status then .error (.status r.status)
  else .ok (if r.status = 204 then "" else Bytes.ofUtf8Marked r.body)

/-- Sends the form of a method and reads what comes back. -/
def call {σ α : Type} (carrier : Carrier σ) (baseUrl : String) (m : Method) (token : Option String)
    (pairs : List (String × String)) (read : String → Except ApiError α) (s : σ) :
    Except ApiError α × σ :=
  match Post.of? baseUrl m token pairs with
  | none => (.error (.transport "the request cannot be built"), s)
  | some post =>
    match carrier.send post s with
    | (.error detail, s) => (.error (.transport detail), s)
    | (.ok reply, s) => (reply.text.bind read, s)

def Message.pairs (m : Message) : List (String × String) :=
  [("channel", m.channel), ("text", m.text), ("username", m.username), ("icon_emoji", m.icon)]

def ExchangeRequest.pairs (r : ExchangeRequest) : List (String × String) :=
  [("client_id", r.clientId), ("client_secret", r.clientSecret), ("code", r.code),
    ("redirect_uri", r.redirectUri)]

/-- Slack at an address. Tokens are sent as bearer tokens; an exchange needs none. -/
def client {σ : Type} (carrier : Carrier σ) (baseUrl : String) : Api σ where
  authTest token := call carrier baseUrl .authTest (some token) [] readIdentity
  postMessage token m := call carrier baseUrl .postMessage (some token) m.pairs readPosted
  oauthAccess r := call carrier baseUrl .oauthAccess none r.pairs readGrant

def unreachable : Carrier Unit where
  send _ _ := (.error "the connection was refused", ())

end DiceBot.Slack
