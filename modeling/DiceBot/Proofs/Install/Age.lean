import DiceBot.Proofs.Install.StateToken

/-!
How old a state token may be: its age is counted in whole seconds, exactly and up to the limit, and
a clock that moves forward can only make it expire.
-/

namespace DiceBot.Install

open Time (Instant)

theorem differenceWithin_mono {a a' : Int} (h : a ≤ a') (b : Int) :
    differenceWithin a b ≤ differenceWithin a' b := by
  unfold differenceWithin
  omega

/-- The difference of two seconds in the range of time needs no more than 64 bits. -/
theorem differenceWithin_eq {a b : Int} (ha : Time.earliest ≤ a ∧ a ≤ Time.latest)
    (hb : Time.earliest ≤ b ∧ b ≤ Time.latest) : differenceWithin a b = a - b := by
  unfold Time.earliest Time.latest at *
  unfold differenceWithin Word.largestSigned64
  omega

namespace Signer

theorem read?_padded {left right : String} (hl : Text.isAllBlank left = true)
    (hr : Text.isAllBlank right = true) (token : String) :
    read? (left ++ token ++ right) = read? token := by
  unfold read?
  rw [String.toList_append, String.toList_append,
    Text.trim_padded (List.all_eq_true.mp hl) (List.all_eq_true.mp hr)]

/-- Only what is read from a token counts. -/
theorem verify_congr (s : Signer) {token token' : String} (h : read? token = read? token')
    (now : Instant) : s.verify token now = s.verify token' now := by
  simp only [verify, h]

/-- The limit of a signer is the given one for every age that fits in 64 bits. -/
theorem maxAge_lt_iff (client secret : String) (maxAge : Nat) {age : Int}
    (h : age ≤ Word.largestSigned64) :
    (Signer.new client secret maxAge).maxAge < age ↔ (maxAge : Int) < age := by
  change min (maxAge : Int) Word.largestSigned64 < age ↔ (maxAge : Int) < age
  omega

/-- A token that is neither malformed nor forged is told its age by every clock. -/
theorem aged_of_verify {s : Signer} {token : String} {now : Instant}
    {verdict : Except StateError Instant} (h : s.verify token now = verdict)
    (hm : verdict ≠ .error .malformed) (hf : verdict ≠ .error .forged) :
    ∃ k issued, ∀ clock : Instant, s.verify token clock =
      if differenceWithin clock.seconds k > s.maxAge then
        .error (.expired (differenceWithin clock.seconds k))
      else .ok issued := by
  obtain ⟨k, hr⟩ := signed_of_verify h hm hf
  rcases verify_signed hr now with ⟨-, hv⟩ | ⟨issued, hi, -⟩
  · exact absurd (h.symm.trans hv) hm
  · exact ⟨k, issued, verify_aged hr hi⟩

theorem verify_earlier {s : Signer} {token : String} {now issued earlier : Instant}
    (h : s.verify token now = .ok issued) (hle : earlier.seconds ≤ now.seconds) :
    s.verify token earlier = .ok issued := by
  obtain ⟨k, issued', haged⟩ := aged_of_verify h (by rintro ⟨⟩) (by rintro ⟨⟩)
  rw [haged] at h ⊢
  split at h
  case isTrue => cases h
  case isFalse hyoung =>
    have hmono := differenceWithin_mono hle k
    rw [if_neg (by omega), h]

theorem verify_later {s : Signer} {token : String} {now later : Instant} {age : Int}
    (h : s.verify token now = .error (.expired age)) (hle : now.seconds ≤ later.seconds) :
    ∃ age', s.verify token later = .error (.expired age') := by
  obtain ⟨k, issued, haged⟩ := aged_of_verify h (by rintro ⟨⟩) (by rintro ⟨⟩)
  rw [haged] at h ⊢
  split at h
  case isTrue hold =>
    have hmono := differenceWithin_mono hle k
    exact ⟨_, if_pos (by omega)⟩
  case isFalse => cases h

/-- An issued token, with blanks around it or without, is good for exactly the seconds of the limit
after the second of its issue, and then it has expired with its true age. Any token that a clock
accepts is accepted with the same time by every clock behind it, and a token that has expired stays
so: clocks within one second say the same. -/
theorem token_ages (client secret : String) (maxAge : Nat) :
    let s := Signer.new client secret maxAge
    (∀ t now : Instant, Time.earliest ≤ t.seconds ∧ t.seconds ≤ Time.latest →
      Time.earliest ≤ now.seconds ∧ now.seconds ≤ Time.latest →
      ∀ left right, Text.isAllBlank left = true → Text.isAllBlank right = true →
        s.verify (left ++ s.issue t ++ right) now =
          if now.seconds - t.seconds ≤ maxAge then .ok ⟨t.seconds, 0⟩
          else .error (.expired (now.seconds - t.seconds))) ∧
    ∀ (token : String) (now : Instant),
      (∀ issued, s.verify token now = .ok issued →
        ∀ earlier : Instant, earlier.seconds ≤ now.seconds → s.verify token earlier = .ok issued) ∧
      ∀ age, s.verify token now = .error (.expired age) →
        ∀ later : Instant, now.seconds ≤ later.seconds →
          ∃ age', s.verify token later = .error (.expired age') := by
  intro s
  refine ⟨?_, fun token now => ⟨fun _ h _ => verify_earlier h, fun _ h _ => verify_later h⟩⟩
  intro t now ht hnow left right hl hr
  have hage : differenceWithin now.seconds t.seconds = now.seconds - t.seconds :=
    differenceWithin_eq hnow ht
  have hfits : now.seconds - t.seconds ≤ Word.largestSigned64 := by
    rw [← hage]
    unfold differenceWithin Word.largestSigned64
    omega
  have hlimit : s.maxAge < now.seconds - t.seconds ↔ (maxAge : Int) < now.seconds - t.seconds :=
    maxAge_lt_iff client secret maxAge hfits
  rw [s.verify_congr (read?_padded hl hr _), s.verify_issue ht.1 ht.2, hage]
  by_cases hyoung : now.seconds - t.seconds ≤ maxAge
  · rw [if_pos hyoung, if_neg (by omega)]
  · rw [if_neg hyoung, if_pos (by omega)]

/-- A token issued in the last second before 1970, for a limit of one hour. -/
theorem token_ages_padded :
    let s := Signer.new "123.456" "client-secret" 3600
    let token := "\u2003" ++ s.issue ⟨-1, 999999999⟩ ++ "\r\n"
    s.verify token ⟨-5, 0⟩ = .ok ⟨-1, 0⟩ ∧ s.verify token ⟨3599, 999999999⟩ = .ok ⟨-1, 0⟩ ∧
      s.verify token ⟨3600, 0⟩ = .error (.expired 3601) ∧
      ∀ later : Instant, 3600 ≤ later.seconds →
        ∃ age, s.verify token later = .error (.expired age) := by
  intro s token
  obtain ⟨hissued, hany⟩ := token_ages "123.456" "client-secret" 3600
  have hverify (now : Instant) (hnow : Time.earliest ≤ now.seconds ∧ now.seconds ≤ Time.latest) :=
    hissued ⟨-1, 999999999⟩ now (by decide) hnow "\u2003" "\r\n" (by decide) (by decide)
  have hlast := hverify ⟨3599, 999999999⟩ (by decide)
  have hexpired := hverify ⟨3600, 0⟩ (by decide)
  exact ⟨(hany token _).1 _ hlast ⟨-5, 0⟩ (by decide), hlast, hexpired,
    (hany token _).2 _ hexpired⟩

end Signer
end DiceBot.Install
