/-!
Punycode of RFC 3492: labels of host names in letters and digits of ASCII.
-/

namespace DiceBot.Web.Punycode

/-- A digit of base 36: the letters, then the digits. -/
def digit (n : Nat) : Char := Char.ofNat (if n < 26 then 97 + n else 22 + n)

/-- The digits from this one on end the number that they write. -/
def threshold (k bias : Nat) : Nat :=
  if k ≤ bias then 1 else if bias + 26 ≤ k then 26 else k - bias

theorem threshold_pos (k bias : Nat) : 1 ≤ threshold k bias := by
  unfold threshold; split <;> (try split) <;> omega

/-- A number of variable length, the lowest digit first. -/
def number (bias k q : Nat) : List Char :=
  let t := threshold k bias
  if q < t then [digit q]
  else digit (t + (q - t) % (36 - t)) :: number bias (k + 36) ((q - t) / (36 - t))
termination_by q
decreasing_by
  have := threshold_pos k bias
  exact Nat.lt_of_le_of_lt (Nat.div_le_self _ _) (by omega)

def shrink (delta k : Nat) : Nat × Nat :=
  if 455 < delta then shrink (delta / 35) (k + 36) else (delta, k)
termination_by delta
decreasing_by exact Nat.div_lt_self (by omega) (by omega)

/-- The bias after a number was written. -/
def adapt (delta written : Nat) (first : Bool) : Nat :=
  let delta := if first then delta / 700 else delta / 2
  let (delta, k) := shrink (delta + delta / written) 0
  k + 36 * delta / (delta + 38)

structure Progress where
  out : List Char
  delta : Nat
  bias : Nat
  written : Nat

/-- Passes a character of the label while the code point `m` is inserted. -/
def pass (basic m : Nat) (p : Progress) (c : Char) : Progress :=
  if c.toNat < m then { p with delta := p.delta + 1 }
  else if c.toNat = m then
    { out := p.out ++ number p.bias 36 p.delta
      delta := 0
      bias := adapt p.delta (p.written + 1) (p.written = basic)
      written := p.written + 1 }
  else p

/-- Inserts code points in ascending order, of which all before `n` are there. -/
def insertAll (label : List Char) (basic : Nat) : List Nat → Nat → Progress → Progress
  | [], _, p => p
  | m :: rest, n, p =>
    let p := { p with delta := p.delta + (m - n) * (p.written + 1) }
    let p := label.foldl (pass basic m) p
    insertAll label basic rest (m + 1) { p with delta := p.delta + 1 }

/-- A label without the mark `xn--`. -/
def encode (label : List Char) : List Char :=
  let basic := label.filter fun c => c.toNat < 0x80
  let others := ((label.map Char.toNat).filter (0x80 ≤ ·)).mergeSort.eraseReps
  basic ++ (if basic = [] then [] else ['-']) ++
    (insertAll label basic.length others 128 ⟨[], 0, 72, basic.length⟩).out

end DiceBot.Web.Punycode
