import DiceBot.Proofs.Json.Field
import DiceBot.Proofs.Outcome
import DiceBot.Slack.Reply

/-!
Replies of Slack, told by what their bodies write. An envelope refuses, with the same code for every
method, or it approves; but only an object can hold the content of a method beside an approval.
-/

namespace DiceBot.Slack

open Json (Field Value)

/-- The reason that an envelope gives: none, also where it writes null, or a text. -/
inductive Reason : Option Value → Option String → Prop where
  | absent : Reason none none
  | null : Reason (some .null) none
  | given (code : String) : Reason (some (.text code)) (some code)

theorem reason_iff {field : Option Value} {error : Option String} :
    Json.withDefault none (Value.nullable? Value.text?) field = some error ↔
      Reason field error := by
  constructor
  · intro h
    cases field with
    | none =>
      cases h
      exact .absent
    | some v =>
      cases v with
      | null =>
        cases h
        exact .null
      | string text =>
        cases text with
        | none => cases h
        | some code =>
          cases h
          exact .given code
      | _ => cases h
  · intro h
    cases h <;> rfl

/-- What an envelope says and how: as an object, or as an array that gives its fields in order. -/
inductive Envelope.Written : Value → Envelope → Prop where
  | object {members : List (Option String × Value)} {ok : Bool} {field : Option Value}
      {error : Option String} (named : ∀ m ∈ members, m.1 ≠ none)
      (hok : Field members "ok" (some (.bool ok))) (hfield : Field members "error" field)
      (herror : Reason field error) : Written (.object members) ⟨ok, error⟩
  | array {ok : Bool} {field : Option Value} {error : Option String} (herror : Reason field error) :
      Written (.array (.bool ok :: field.toList)) ⟨ok, error⟩

theorem bool?_needed_iff {field : Option Value} {ok : Bool} :
    Json.needed Value.bool? field = some ok ↔ field = some (.bool ok) := by
  constructor
  · intro h
    obtain ⟨v, hv, h⟩ := Option.bind_eq_some_iff.mp h
    cases v with
    | bool b =>
      cases h
      exact hv
    | _ => cases h
  · rintro rfl
    rfl

theorem Envelope.ofJson?_of_fields {v : Value} {e : Envelope} : Envelope.ofJson? v = some e ↔
    ∃ field, v.fields? ["ok", "error"] 1 = some [some (.bool e.ok), field] ∧
      Reason field e.error := by
  unfold Envelope.ofJson?
  constructor
  · intro h
    obtain ⟨fields, hf, h⟩ := Option.bind_eq_some_iff.mp h
    split at h
    · obtain ⟨ok, hok, h⟩ := Option.bind_eq_some_iff.mp h
      obtain ⟨error, herror, h⟩ := Option.bind_eq_some_iff.mp h
      cases h
      rw [bool?_needed_iff.mp hok] at hf
      exact ⟨_, hf, reason_iff.mp herror⟩
    · cases h
  · rintro ⟨field, hf, herror⟩
    simp only [hf, Option.bind_eq_bind, Option.bind_some, bool?_needed_iff.mpr rfl,
      reason_iff.mpr herror]
    rfl

theorem Envelope.ofJson?_eq_some_iff {v : Value} {e : Envelope} :
    Envelope.ofJson? v = some e ↔ Envelope.Written v e := by
  rw [Envelope.ofJson?_of_fields]
  constructor
  · rintro ⟨field, hf, herror⟩
    cases v with
    | object members =>
      obtain ⟨named, hfields⟩ := Value.fields?_object_iff.mp hf
      obtain ⟨hok, hfields⟩ := List.forall₂_cons.mp hfields
      exact .object named hok (List.forall₂_cons.mp hfields).1 herror
    | array items =>
      match items with
      | [] => cases hf
      | [ok] =>
        cases hf
        exact .array herror
      | [ok, reason] =>
        cases hf
        exact .array herror
      | ok :: reason :: more :: items =>
        have hlong : ["ok", "error"].length < (ok :: reason :: more :: items).length :=
          Nat.le_add_left 3 items.length
        rw [Value.fields?_array_long hlong] at hf
        cases hf
    | _ => cases hf
  · intro h
    cases h with
    | object named hok hfield herror =>
      exact ⟨_, Value.fields?_object_iff.mpr ⟨named, .cons hok (.cons hfield .nil)⟩, herror⟩
    | @array ok field error herror =>
      refine ⟨field, ?_, herror⟩
      cases field <;> rfl

/-- The body is an envelope that refuses, with this code. -/
def Refuses (body code : String) : Prop :=
  ∃ v error, Json.parse? body = some v ∧ Envelope.Written v ⟨false, error⟩ ∧
    code = error.getD "unknown_error"

/-- The body is an envelope that approves. -/
def Approves (body : String) : Prop :=
  ∃ v error, Json.parse? body = some v ∧ Envelope.Written v ⟨true, error⟩

/-- How a reply is told by its body: it is refused when the envelope refuses, it is a success only
if the envelope approves, and any other body is no reply. -/
structure ToldBy {α : Type} (body : String) (reply : Except ApiError α) : Prop where
  refused_iff : ∀ code, reply = .error (.refused code) ↔ Refuses body code
  approves : ∀ a, reply = .ok a → Approves body
  malformed : (∀ a, reply ≠ .ok a) → (∀ code, ¬ Refuses body code) →
    ∃ detail, reply = .error (.malformed detail)

theorem Envelope.Written.unique {v : Value} {e e' : Envelope} (h : Envelope.Written v e)
    (h' : Envelope.Written v e') : e = e' :=
  Option.some.inj ((Envelope.ofJson?_eq_some_iff.mpr h).symm.trans
    (Envelope.ofJson?_eq_some_iff.mpr h'))

section read

variable {α : Type} (m : Method) (content? : Value → Option α) (body : String)

/-- The content is read only beside an approval. -/
theorem Method.read_cases :
    ((∀ v e, Json.parse? body = some v → ¬ Envelope.Written v e) ∧
      m.read content? body = .error m.noReply) ∨
    (∃ v error, Json.parse? body = some v ∧ Envelope.Written v ⟨false, error⟩ ∧
      m.read content? body = .error (.refused (error.getD "unknown_error"))) ∨
    ∃ v error, Json.parse? body = some v ∧ Envelope.Written v ⟨true, error⟩ ∧
      ((content? v = none ∧ m.read content? body = .error m.noReply) ∨
        ∃ a, content? v = some a ∧ m.read content? body = .ok a) := by
  unfold Method.read
  split
  case h_1 hp =>
    refine .inl ⟨fun v e hv => ?_, rfl⟩
    cases hp.symm.trans hv
  case h_2 v hp =>
    split
    case h_1 he =>
      refine .inl ⟨fun v' e hv hw => ?_, rfl⟩
      cases hp.symm.trans hv
      cases he.symm.trans (Envelope.ofJson?_eq_some_iff.mpr hw)
    case h_2 error he =>
      exact .inr (.inl ⟨v, error, hp, Envelope.ofJson?_eq_some_iff.mp he, rfl⟩)
    case h_3 error he =>
      refine .inr (.inr ⟨v, error, hp, Envelope.ofJson?_eq_some_iff.mp he, ?_⟩)
      cases content? v with
      | none => exact .inl ⟨rfl, rfl⟩
      | some a => exact .inr ⟨a, rfl, rfl⟩

variable {m content? body}

theorem Method.read_refused_iff {code : String} :
    m.read content? body = .error (.refused code) ↔ Refuses body code := by
  constructor
  · intro h
    rcases m.read_cases content? body with ⟨-, hr⟩ | ⟨v, error, hp, he, hr⟩ |
      ⟨v, error, hp, he, ⟨-, hr⟩ | ⟨a, -, hr⟩⟩
    case inr.inl =>
      cases h.symm.trans hr
      exact ⟨v, error, hp, he, rfl⟩
    all_goals cases h.symm.trans hr
  · rintro ⟨v, error, hp, he, rfl⟩
    rcases m.read_cases content? body with ⟨hn, -⟩ | ⟨v', error', hp', he', hr⟩ |
      ⟨v', error', hp', he', -⟩
    · exact absurd he (hn v _ hp)
    · cases hp.symm.trans hp'
      cases he.unique he'
      exact hr
    · cases hp.symm.trans hp'
      cases he.unique he'

theorem Method.read_eq_ok_iff {a : α} : m.read content? body = .ok a ↔
    ∃ v error, Json.parse? body = some v ∧ Envelope.Written v ⟨true, error⟩ ∧
      content? v = some a := by
  constructor
  · intro h
    rcases m.read_cases content? body with ⟨-, hr⟩ | ⟨v, error, hp, he, hr⟩ |
      ⟨v, error, hp, he, ⟨-, hr⟩ | ⟨a, ha, hr⟩⟩
    case inr.inr.inr =>
      cases h.symm.trans hr
      exact ⟨v, error, hp, he, ha⟩
    all_goals cases h.symm.trans hr
  · rintro ⟨v, error, hp, he, ha⟩
    rcases m.read_cases content? body with ⟨hn, -⟩ | ⟨v', error', hp', he', -⟩ |
      ⟨v', error', hp', -, ⟨ha', -⟩ | ⟨a', ha', hr⟩⟩
    · exact absurd he (hn v _ hp)
    · cases hp.symm.trans hp'
      cases he.unique he'
    · cases hp.symm.trans hp'
      cases ha.symm.trans ha'
    · cases hp.symm.trans hp'
      cases ha.symm.trans ha'
      exact hr

theorem Method.read_toldBy : ToldBy body (m.read content? body) where
  refused_iff _ := read_refused_iff
  approves _ h := by
    obtain ⟨v, error, hp, he, -⟩ := read_eq_ok_iff.mp h
    exact ⟨v, error, hp, he⟩
  malformed hok hrefused := by
    rcases m.read_cases content? body with ⟨-, hr⟩ | ⟨v, error, hp, he, -⟩ |
      ⟨v, error, hp, he, ⟨-, hr⟩ | ⟨a, -, hr⟩⟩
    · exact ⟨_, hr⟩
    · exact absurd ⟨v, error, hp, he, rfl⟩ (hrefused (error.getD "unknown_error"))
    · exact ⟨_, hr⟩
    · exact absurd hr (hok a)

end read

/-- A further demand on the content makes a reply malformed at most. -/
theorem ToldBy.bind {α β : Type} {body : String} {reply : Except ApiError α}
    (h : ToldBy body reply) {demand : α → Except ApiError β}
    (hd : ∀ a, (∃ b, demand a = .ok b) ∨ ∃ detail, demand a = .error (.malformed detail)) :
    ToldBy body (reply.bind demand) := by
  cases reply with
  | error e =>
    refine ⟨fun code => ?_, fun b hb => (nomatch hb), fun _ hrefused => ?_⟩
    · rw [← h.refused_iff code]
      simp [Except.bind]
    · obtain ⟨detail, he⟩ := h.malformed (fun a ha => (nomatch ha)) hrefused
      cases he
      exact ⟨detail, rfl⟩
  | ok a =>
    have hnot (code : String) : ¬ Refuses body code := by
      intro hr
      cases (h.refused_iff code).mpr hr
    refine ⟨fun code => ⟨fun hb => ?_, fun hr => absurd hr (hnot code)⟩,
      fun _ _ => h.approves a rfl, fun hok _ => ?_⟩
    · change demand a = _ at hb
      rcases hd a with ⟨b, hb'⟩ | ⟨detail, hb'⟩ <;> cases hb.symm.trans hb'
    · rcases hd a with ⟨b, hb⟩ | hmalformed
      · exact absurd hb (hok b)
      · exact hmalformed

theorem Exchange.grant_cases (e : Exchange) :
    (∃ grant, e.grant = .ok grant) ∨ ∃ detail, e.grant = .error (.malformed detail) := by
  unfold Exchange.grant
  split
  · exact .inr ⟨_, rfl⟩
  · split
    · exact .inr ⟨_, rfl⟩
    · exact .inl ⟨_, rfl⟩

/-- An object of which the only `ok` is true, and which holds the content. -/
def ObjectGives {α : Type} (content? : Value → Option α) (body : String) (a : α) : Prop :=
  ∃ members error, Json.parse? body = some (.object members) ∧
    Field members "ok" (some (.bool true)) ∧
    Envelope.Written (.object members) ⟨true, error⟩ ∧ content? (.object members) = some a

/-- Where an array gives its approval, a method expects a text. -/
theorem Identity.ofJson?_array (ok : Bool) (items : List Value) :
    Identity.ofJson? (.array (.bool ok :: items)) = none := by
  match items with
  | [] => rfl
  | [user] => rfl
  | user :: more :: items =>
    have hlong : ["team_id", "user_id"].length < (Value.bool ok :: user :: more :: items).length :=
      Nat.le_add_left 3 items.length
    rw [Identity.ofJson?, Value.fields?_array_long hlong]
    rfl

theorem Exchange.ofJson?_array (ok : Bool) (items : List Value) :
    Exchange.ofJson? (.array (.bool ok :: items)) = none := by
  match items with
  | [] => rfl
  | [team] => rfl
  | [team, bot] => rfl
  | team :: bot :: more :: items =>
    have hlong : ["access_token", "team_id", "bot"].length <
        (Value.bool ok :: team :: bot :: more :: items).length :=
      Nat.le_add_left 4 items.length
    rw [Exchange.ofJson?, Value.fields?_array_long hlong]
    rfl

/-- A method whose content no array gives beside an approval succeeds on objects only. -/
theorem Method.read_eq_ok_iff_object {α : Type} {m : Method} {content? : Value → Option α}
    (harray : ∀ ok items, content? (.array (.bool ok :: items)) = none) {body : String} {a : α} :
    m.read content? body = .ok a ↔ ObjectGives content? body a := by
  rw [Method.read_eq_ok_iff]
  constructor
  · rintro ⟨v, error, hp, he, ha⟩
    cases he with
    | object named hok hfield herror =>
      exact ⟨_, error, hp, hok, .object named hok hfield herror, ha⟩
    | array herror => cases (harray _ _).symm.trans ha
  · rintro ⟨members, error, hp, -, he, ha⟩
    exact ⟨_, error, hp, he, ha⟩

/-- A reply is refused with the code of its envelope, whatever was asked of Slack and whatever else
the body holds; it succeeds only beside an approval, and every other body is malformed. Who a token
speaks for and what a code is exchanged for are told by objects only, of which the only `ok` is
true, although an array can be an envelope too. -/
theorem replies_told (body : String) :
    (∀ v e, Envelope.ofJson? v = some e ↔ Envelope.Written v e) ∧
    ToldBy body (readIdentity body) ∧ ToldBy body (readPosted body) ∧
    ToldBy body (Method.oauthAccess.read Exchange.ofJson? body) ∧ ToldBy body (readGrant body) ∧
    (∀ who, readIdentity body = .ok who ↔ ObjectGives Identity.ofJson? body who) ∧
    (∀ exchange, Method.oauthAccess.read Exchange.ofJson? body = .ok exchange ↔
      ObjectGives Exchange.ofJson? body exchange) ∧
    ∀ grant, readGrant body = .ok grant ↔
      ∃ exchange, ObjectGives Exchange.ofJson? body exchange ∧ exchange.grant = .ok grant := by
  have hexchange (exchange : Exchange) : Method.oauthAccess.read Exchange.ofJson? body =
      .ok exchange ↔ ObjectGives Exchange.ofJson? body exchange :=
    Method.read_eq_ok_iff_object Exchange.ofJson?_array
  refine ⟨fun _ _ => Envelope.ofJson?_eq_some_iff, Method.read_toldBy, Method.read_toldBy,
    Method.read_toldBy, Method.read_toldBy.bind Exchange.grant_cases,
    fun _ => Method.read_eq_ok_iff_object Identity.ofJson?_array, hexchange, fun grant => ?_⟩
  exact bind_eq_ok_iff.trans (exists_congr fun exchange => and_congr_left' (hexchange exchange))

-- An array may approve or refuse, but it identifies nobody.
example : readPosted "[true]" = .ok () ∧
    readPosted "[false, \"not_authed\"]" = .error (.refused "not_authed") ∧
    readIdentity "[true]" = .error Method.authTest.noReply := by
  decide +kernel

end DiceBot.Slack
