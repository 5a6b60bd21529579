import DiceBot.Install.StateToken
import DiceBot.Proofs.Bytes.Hex
import DiceBot.Proofs.Crypto.Lengths
import DiceBot.Proofs.Text.Ascii
import DiceBot.Proofs.Text.Numeral
import DiceBot.Proofs.Text.Split
import DiceBot.Proofs.Text.Trim

/-!
A state token is bound to the client and the second that it was issued for: what is signed
determines both, and no token passes without the signature of its own second.
-/

namespace DiceBot.Install

open Text (trim)
open Time (Instant)

namespace Signer

/-- The signed text determines the client and the second, whatever the client is called: the last
colon is the one before the second. -/
theorem payload_injective {c c' : String} {k k' : Int}
    (h : c ++ ":" ++ toString k = c' ++ ":" ++ toString k') : c = c' ∧ k = k' := by
  have hlast (n : Int) : ':' ∉ (toString n).toList := Text.not_mem_toString_int rfl (by decide) n
  have hl := congrArg String.toList h
  simp only [String.toList_append, List.append_assoc] at hl
  obtain ⟨hc, hk⟩ := Text.append_cons_inj_of_last (hlast k) (hlast k') hl
  exact ⟨String.toList_inj.mp hc, Text.toString_int_injective hk⟩

/-- A token is read as the second before its first dot and the signature after it. -/
theorem read?_eq_some_iff {token : String} {k : Int} {signature : List UInt8} :
    read? token = some (k, signature) ↔ ∃ p q, trim token.toList = p ++ '.' :: q ∧ '.' ∉ p ∧
      Text.readInt64? p = some k ∧ Bytes.Hex.decode? q = some signature := by
  unfold read?
  constructor
  · intro h
    obtain ⟨⟨p, q⟩, hs, h⟩ := Option.bind_eq_some_iff.mp h
    obtain ⟨k', hk, h⟩ := Option.bind_eq_some_iff.mp h
    obtain ⟨signature', hq, h⟩ := Option.bind_eq_some_iff.mp h
    cases h
    obtain ⟨ht, hn⟩ := Text.splitFirst_eq_some_iff.mp hs
    exact ⟨p, q, ht, hn, hk, hq⟩
  · rintro ⟨p, q, ht, hn, hk, hq⟩
    rw [Text.splitFirst_eq_some_iff.mpr ⟨ht, hn⟩]
    simp only [Option.bind_eq_bind, Option.bind_some, hk, hq]
    rfl

/-- Every time lies in a second of 64 bits. -/
theorem holdsSigned64_of_range {n : Int} (h : Time.earliest ≤ n) (h' : n ≤ Time.latest) :
    Word.holdsSigned64 n = true := by
  unfold Time.earliest at h
  unfold Time.latest at h'
  have hl : -Word.largestSigned64 - 1 ≤ n := by
    unfold Word.largestSigned64
    omega
  have hu : n ≤ Word.largestSigned64 := by
    unfold Word.largestSigned64
    omega
  simp [Word.holdsSigned64, hl, hu]

/-- A token is written with letters, digits, a dot and perhaps a minus sign. -/
theorem issue_no_blank (s : Signer) (t : Instant) :
    ∀ c ∈ (s.issue t).toList, Text.isBlank c = false := by
  intro c hc
  simp only [issue, String.toList_append, List.mem_append, String.toList_ofList] at hc
  rcases hc with (hc | hc) | hc
  · rcases Text.mem_toString_int hc with hd | rfl
    · exact Text.isBlank_of_isAlphanum (Text.isAlphanum_iff.mpr (.inr hd))
    · rfl
  · rw [List.mem_singleton.mp hc]
    rfl
  · exact Text.isBlank_of_isAlphanum (Bytes.Hex.isAlphanum_of_mem_encode hc)

/-- An issued token writes its second and its signature. -/
theorem read?_issue (s : Signer) {t : Instant} (h : Time.earliest ≤ t.seconds)
    (h' : t.seconds ≤ Time.latest) :
    read? (s.issue t) = some (t.seconds, s.signature t.seconds) := by
  have hne : s.signature t.seconds ≠ [] := by
    intro he
    have hl := Crypto.length_hmac (Bytes.utf8 s.secret) (Bytes.utf8 (s.payload t.seconds))
    rw [show Crypto.hmac _ _ = [] from he] at hl
    cases hl
  have htext : (s.issue t).toList = (toString t.seconds).toList ++
      '.' :: Bytes.Hex.encode (s.signature t.seconds) := by
    simp only [issue, String.toList_append, String.toList_ofList, List.append_assoc]
    rfl
  exact read?_eq_some_iff.mpr ⟨_, _, (Text.trim_of_no_blank (s.issue_no_blank t)).trans htext,
    Text.not_mem_toString_int rfl (by decide) t.seconds,
    Text.readInt64?_toString (holdsSigned64_of_range h h'), Bytes.Hex.decode?_encode hne⟩

theorem verify_unread {s : Signer} {token : String} (hr : read? token = none) (now : Instant) :
    s.verify token now = .error .malformed := by
  simp only [verify, hr]

theorem verify_unsigned {s : Signer} {token : String} {k : Int} {signature : List UInt8}
    (hr : read? token = some (k, signature)) (hs : signature ≠ s.signature k) (now : Instant) :
    s.verify token now = .error .forged := by
  simp only [verify, hr, if_pos hs]

/-- A token with the signature of its second is judged by its age alone. -/
theorem verify_aged {s : Signer} {token : String} {k : Int} {issued : Instant}
    (hr : read? token = some (k, s.signature k)) (hi : Instant.ofSeconds? k = some issued)
    (now : Instant) : s.verify token now =
      if differenceWithin now.seconds k > s.maxAge then
        .error (.expired (differenceWithin now.seconds k))
      else .ok issued := by
  simp only [verify, hr, hi]
  rw [if_neg (not_not.mpr rfl)]

/-- A token that bears the signature of its second is as old as it says, if there is such a time. -/
theorem verify_signed {s : Signer} {token : String} {k : Int}
    (hr : read? token = some (k, s.signature k)) (now : Instant) :
    (Instant.ofSeconds? k = none ∧ s.verify token now = .error .malformed) ∨
    ∃ issued, Instant.ofSeconds? k = some issued ∧ (s.verify token now = .ok issued ∨
      ∃ age, s.verify token now = .error (.expired age)) := by
  cases hi : Instant.ofSeconds? k with
  | none =>
    have hs : ¬ (s.signature k ≠ s.signature k) := not_not.mpr rfl
    exact .inl ⟨rfl, by simp only [verify, hr, hi, if_neg hs]⟩
  | some issued =>
    refine .inr ⟨issued, rfl, ?_⟩
    rw [verify_aged hr hi]
    split
    · exact .inr ⟨_, rfl⟩
    · exact .inl rfl

/-- A token that is neither malformed nor forged bears the signature of its second. -/
theorem signed_of_verify {s : Signer} {token : String} {now : Instant}
    {verdict : Except StateError Instant} (h : s.verify token now = verdict)
    (hm : verdict ≠ .error .malformed) (hf : verdict ≠ .error .forged) :
    ∃ k, read? token = some (k, s.signature k) := by
  subst h
  cases hr : read? token with
  | none => exact absurd (verify_unread hr now) hm
  | some pair =>
    obtain ⟨k, signature⟩ := pair
    by_cases hs : signature = s.signature k
    · exact ⟨k, by rw [hs]⟩
    · exact absurd (verify_unsigned hr hs now) hf

/-- The signature of its own second carries a token past everything but its age. -/
theorem verify_in_time {s : Signer} {token : String} {k : Int}
    (hr : read? token = some (k, s.signature k)) (h : Time.earliest ≤ k) (h' : k ≤ Time.latest)
    (now : Instant) : (∃ issued, s.verify token now = .ok issued) ∨
      ∃ age, s.verify token now = .error (.expired age) := by
  rcases verify_signed hr now with ⟨hn, -⟩ | ⟨issued, -, hv | hv⟩
  · rw [Instant.ofSeconds?, if_pos ⟨h, h'⟩] at hn
    cases hn
  · exact .inl ⟨issued, hv⟩
  · exact .inr hv

/-- The token of an issuer is as old for it as its clock says, counted in whole seconds. -/
theorem verify_issue (s : Signer) {t : Instant} (h : Time.earliest ≤ t.seconds)
    (h' : t.seconds ≤ Time.latest) (now : Instant) :
    s.verify (s.issue t) now =
      if differenceWithin now.seconds t.seconds > s.maxAge then
        .error (.expired (differenceWithin now.seconds t.seconds))
      else .ok ⟨t.seconds, 0⟩ :=
  verify_aged (s.read?_issue h h') (if_pos ⟨h, h'⟩) now

/-- A token that its issuer gave out is good while its second is not too far back. -/
theorem verify_issue_ok (client secret : String) {maxAge : Nat} {t now : Instant}
    (h : Time.earliest ≤ t.seconds) (h' : t.seconds ≤ Time.latest)
    (hage : now.seconds - t.seconds ≤ maxAge) :
    (Signer.new client secret maxAge).verify ((Signer.new client secret maxAge).issue t) now =
      .ok ⟨t.seconds, 0⟩ := by
  rw [verify_issue _ h h', if_neg]
  change ¬ max (-Word.largestSigned64 - 1) (min Word.largestSigned64 (now.seconds - t.seconds)) >
    min (maxAge : Int) Word.largestSigned64
  unfold Word.largestSigned64
  omega

theorem verify_forged_iff {s : Signer} {token : String} {k : Int} {signature : List UInt8}
    (hr : read? token = some (k, signature)) (now : Instant) :
    s.verify token now = .error .forged ↔ signature ≠ s.signature k := by
  refine ⟨?_, fun hs => verify_unsigned hr hs now⟩
  rintro hv rfl
  rcases verify_signed hr now with ⟨-, hv'⟩ | ⟨issued, -, hv' | ⟨age, hv'⟩⟩ <;>
    cases hv.symm.trans hv'

/-- A token with the signature of a client and of the second that stands before its first dot. -/
def Bears (s : Signer) (token : String) (k : Int) : Prop :=
  ∃ p q, trim token.toList = p ++ '.' :: q ∧ '.' ∉ p ∧ Text.readInt64? p = some k ∧
    Bytes.Hex.decode? q =
      some (Crypto.hmac (Bytes.utf8 s.secret) (Bytes.utf8 (s.clientId ++ ":" ++ toString k)))

theorem bears_of_ok {s : Signer} {token : String} {now issued : Instant}
    (h : s.verify token now = .ok issued) : s.Bears token issued.seconds := by
  obtain ⟨k, hr⟩ := signed_of_verify h (by rintro ⟨⟩) (by rintro ⟨⟩)
  rcases verify_signed hr now with ⟨-, hv⟩ | ⟨issued', hi, hv | ⟨age, hv⟩⟩
  · cases h.symm.trans hv
  · cases h.symm.trans hv
    unfold Instant.ofSeconds? at hi
    split at hi
    · cases hi
      exact read?_eq_some_iff.mp hr
    · cases hi
  · cases h.symm.trans hv

theorem bears_of_expired {s : Signer} {token : String} {now : Instant} {age : Int}
    (h : s.verify token now = .error (.expired age)) : ∃ k, s.Bears token k := by
  obtain ⟨k, hr⟩ := signed_of_verify h (by rintro ⟨⟩) (by rintro ⟨⟩)
  exact ⟨k, read?_eq_some_iff.mp hr⟩

/-- The signature of an issued token is good for its client and its second alone: with any other
client or second a different text is signed, and the token is refused unless the two texts have one
signature. No token passes without the 32 bytes of the signature of its second. -/
theorem token_bound (client other secret : String) (maxAge otherMaxAge : Nat) (t : Instant)
    (h : Time.earliest ≤ t.seconds) (h' : t.seconds ≤ Time.latest) :
    let issuer := Signer.new client secret maxAge
    let verifier := Signer.new other secret otherMaxAge
    let sign (payload : String) := Crypto.hmac (Bytes.utf8 secret) (Bytes.utf8 payload)
    (∀ payload, (sign payload).length = 32) ∧ issuer.Bears (issuer.issue t) t.seconds ∧
    (∀ token p q k, trim token.toList = p ++ '.' :: q → '.' ∉ p → Text.readInt64? p = some k →
      Bytes.Hex.decode? q = some (sign (client ++ ":" ++ toString t.seconds)) →
      (other = client → k = t.seconds → ∀ now, (∃ issued, verifier.verify token now = .ok issued) ∨
        ∃ age, verifier.verify token now = .error (.expired age)) ∧
      (¬ (other = client ∧ k = t.seconds) →
        client ++ ":" ++ toString t.seconds ≠ other ++ ":" ++ toString k ∧
        ∀ now, verifier.verify token now = .error .forged ↔
          sign (client ++ ":" ++ toString t.seconds) ≠ sign (other ++ ":" ++ toString k))) ∧
    ∀ token now,
      (∀ issued, verifier.verify token now = .ok issued → verifier.Bears token issued.seconds) ∧
      ∀ age, verifier.verify token now = .error (.expired age) → ∃ k, verifier.Bears token k := by
  intro issuer verifier sign
  refine ⟨fun payload => Crypto.length_hmac _ _, read?_eq_some_iff.mp (issuer.read?_issue h h'), ?_,
    fun token now => ⟨fun _ => bears_of_ok, fun _ => bears_of_expired⟩⟩
  intro token p q k ht hn hk hq
  have hr : read? token = some (k, issuer.signature t.seconds) :=
    read?_eq_some_iff.mpr ⟨p, q, ht, hn, hk, hq⟩
  constructor
  · rintro rfl rfl now
    exact verify_in_time (s := verifier) hr h h' now
  · intro hne
    refine ⟨?_, verify_forged_iff hr⟩
    intro he
    obtain ⟨rfl, rfl⟩ := payload_injective he
    exact hne ⟨rfl, rfl⟩

/-- The token of a client with a colon in its name, given to the client named before the colon. -/
theorem token_bound_moved :
    let t : Instant := ⟨5, 0⟩
    let hex := "700b4e9b6c18e59eb253471197e9ae95fda83c22d20d49442ab67dd434d98805".toList
    let token := "5.700b4e9b6c18e59eb253471197e9ae95fda83c22d20d49442ab67dd434d98805"
    let sign (payload : String) :=
      Crypto.hmac (Bytes.utf8 "client-secret") (Bytes.utf8 payload)
    (Time.earliest ≤ t.seconds ∧ t.seconds ≤ Time.latest) ∧
    (trim token.toList = ['5'] ++ '.' :: hex ∧ '.' ∉ ['5'] ∧ Text.readInt64? ['5'] = some 5 ∧
      Bytes.Hex.decode? hex = some (sign ("123:456" ++ ":" ++ toString t.seconds))) ∧
    ¬ ("123" = "123:456" ∧ 5 = t.seconds) ∧
    ∀ now, (Signer.new "123" "client-secret" 3600).verify token now = .error .forged := by
  intro t hex token sign
  have hrange : Time.earliest ≤ t.seconds ∧ t.seconds ≤ Time.latest := by decide
  have htrim : trim token.toList = ['5'] ++ '.' :: hex := by decide +kernel
  have hread : Text.readInt64? ['5'] = some 5 := by decide +kernel
  have hhex : Bytes.Hex.decode? hex = some (sign ("123:456" ++ ":" ++ toString t.seconds)) := by
    decide +kernel
  have hother : ¬ ("123" = "123:456" ∧ 5 = t.seconds) := by decide
  have hforeign : Bytes.Hex.decode? hex ≠ some (sign ("123" ++ ":" ++ toString (5 : Int))) := by
    decide +kernel
  have hsign : sign ("123:456" ++ ":" ++ toString t.seconds) ≠
      sign ("123" ++ ":" ++ toString (5 : Int)) :=
    fun he => hforeign (hhex.trans (congrArg some he))
  refine ⟨hrange, ⟨htrim, by decide, hread, hhex⟩, hother, fun now => ?_⟩
  -- The two payloads are `123:456:5` and `123:5`.
  obtain ⟨-, -, hmoved, -⟩ :=
    token_bound "123:456" "123" "client-secret" 3600 3600 t hrange.1 hrange.2
  exact ((hmoved token ['5'] hex 5 htrim (by decide) hread hhex).2 hother).2 now |>.mpr hsign

end Signer
end DiceBot.Install
