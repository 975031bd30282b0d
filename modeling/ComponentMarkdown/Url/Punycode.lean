namespace ComponentMarkdown.Url.Punycode

def digit? (c : Char) : Option Nat :=
  if 'a' ≤ c ∧ c ≤ 'z' then some (c.toNat - 97)
  else if 'A' ≤ c ∧ c ≤ 'Z' then some (c.toNat - 65)
  else if '0' ≤ c ∧ c ≤ '9' then some (c.toNat - 22)
  else none

/-- Below this value a digit at the given place ends its number. -/
def threshold (place bias : Nat) : Nat := min 26 (max 1 (place - bias))

/-- Reads a number. A number ends with its first digit below the threshold. -/
def number? (bias place weight value : Nat) : List Char → Option (Nat × List Char)
  | [] => none
  | c :: rest => do
    let digit ← digit? c
    let value := value + digit * weight
    let t := threshold place bias
    if 0x100000000 ≤ value then none
    else if digit < t then return (value, rest)
    else number? bias (place + 36) (weight * (36 - t)) value rest

/-- Divides until the value is small, and counts the divisions. -/
def reduced : Nat → Nat → Nat × Nat
  | 0, delta => (delta, 0)
  | fuel + 1, delta =>
    if 455 < delta then
      let (result, count) := reduced fuel (delta / 35)
      (result, count + 1)
    else (delta, 0)

/-- The bias for the number behind one that was read, which placed the last of `count` characters. -/
def adapted (delta count : Nat) (first : Bool) : Nat :=
  let delta := if first then delta / 700 else delta / 2
  let (delta, divisions) := reduced 32 (delta + delta / count)
  36 * divisions + 36 * delta / (delta + 38)

theorem number?_length {bias place weight value result : Nat} {s rest : List Char}
    (h : number? bias place weight value s = some (result, rest)) : rest.length < s.length := by
  induction s generalizing place weight value with
  | nil => simp [number?] at h
  | cons c tail ih =>
    unfold number? at h
    obtain ⟨digit, -, h⟩ := Option.bind_eq_some_iff.1 h
    dsimp only at h
    split at h
    · exact absurd h (by simp)
    · split at h
      · obtain ⟨-, rfl⟩ := Prod.mk.inj (Option.some.inj h)
        simp
      · have := ih h
        simp only [List.length_cons]
        omega

/-- Inserts the characters that the numbers place into a label. `code` is the character inserted last
and `place` the place behind it. -/
def insertAll? (code place bias : Nat) (label s : List Char) : Option (List Char) :=
  if s.isEmpty then some label
  else
    match _h : number? bias 36 1 0 s with
    | none => none
    | some (delta, rest) =>
      let count := label.length + 1
      let steps := place + delta
      let code := code + steps / count
      if 0x110000 ≤ code ∨ (0xD800 ≤ code ∧ code < 0xE000) then none
      else
        let next := steps % count
        insertAll? code (next + 1) (adapted delta count (place = 0))
          (label.take next ++ Char.ofNat code :: label.drop next) rest
termination_by s.length
decreasing_by exact number?_length _h

/-- The label that an encoded text stands for: ASCII characters, a hyphen, and for every other character how many
steps it is from the one inserted before, as a number of base 36 digits. -/
def decode? (s : List Char) : Option (List Char) :=
  let numbers := (s.reverse.takeWhile (· ≠ '-')).reverse
  insertAll? 128 0 72 (s.take (s.length - numbers.length - 1)) numbers

end ComponentMarkdown.Url.Punycode
