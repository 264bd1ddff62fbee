import SteamSalesTray.Text

namespace SteamSalesTray.Platform

/-- The digits of a number, the least significant first, with a comma after every third of them
that another one follows. -/
def groupThousands : Nat → Wide → Wide
  | _, [] => []
  | count, d :: rest =>
    if count ≠ 0 ∧ count % 3 = 0 then wide "," ++ d :: groupThousands (count + 1) rest
    else d :: groupThousands (count + 1) rest

def formatThousands (value : Int) : Wide :=
  let negative := value < 0
  let magnitude := if negative then (-(value + 1)).toNat + 1 else value.toNat
  let digits : Wide := (decimal magnitude).map fun b => UInt16.ofNat b.toNat
  let out := groupThousands 0 digits.reverse
  (if negative then out ++ wide "-" else out).reverse

example : formatThousands (-1234567) = wide "-1,234,567" := by decide

def utf16 (c : Nat) : Wide :=
  if c < 0x10000 then [UInt16.ofNat c]
  else
    [UInt16.ofNat (0xD800 + (c - 0x10000) / 0x400), UInt16.ofNat (0xDC00 + (c - 0x10000) % 0x400)]

/-- The code point that the bytes begin with and the number of its bytes, if they begin with a
well-formed sequence. -/
def decodeHead (b : Nat) (rest : List Nat) : Option (Nat × Nat) :=
  let tail := fun c => 0x80 ≤ c ∧ c < 0xC0
  match rest with
  | c1 :: c2 :: c3 :: _ =>
    let two := (b - 0xC0) * 0x40 + (c1 - 0x80)
    let three := (b - 0xE0) * 0x1000 + (c1 - 0x80) * 0x40 + (c2 - 0x80)
    let four := (b - 0xF0) * 0x40000 + (c1 - 0x80) * 0x1000 + (c2 - 0x80) * 0x40 + (c3 - 0x80)
    if b < 0x80 then some (b, 1)
    else if 0xC2 ≤ b ∧ b < 0xE0 ∧ tail c1 then some (two, 2)
    else if 0xE0 ≤ b ∧ b < 0xF0 ∧ tail c1 ∧ tail c2 ∧ 0x800 ≤ three ∧
        ¬(0xD800 ≤ three ∧ three < 0xE000) then some (three, 3)
    else if 0xF0 ≤ b ∧ b < 0xF5 ∧ tail c1 ∧ tail c2 ∧ tail c3 ∧ 0x10000 ≤ four ∧
        four < 0x110000 then some (four, 4)
    else none
  | _ => none

/-- `Utf8ToWide` of a text whose length is an `int`.  It stands for what `MultiByteToWideChar` does
with it, which answers; that each byte of an ill-formed part becomes one U+FFFD is a choice made
here, and what is proved of the text of such bytes does not look into it. -/
def utf8ToWide (utf8 : Bytes) : Wide :=
  go utf8.length (utf8.map UInt8.toNat)
where
  go : Nat → List Nat → Wide
    | 0, _ | _, [] => []
    | fuel + 1, b :: rest =>
      match decodeHead b (rest ++ [0, 0, 0]) with
      | some (c, n) => utf16 c ++ go fuel (rest.drop (n - 1))
      | none => 0xFFFD :: go fuel rest

/-- The code points of UTF-16 code units, a lone surrogate becoming U+FFFD. -/
def codePoints : List Nat → List Nat
  | [] => []
  | [c] => [if 0xD800 ≤ c ∧ c < 0xE000 then 0xFFFD else c]
  | c :: c' :: rest =>
    if 0xD800 ≤ c ∧ c < 0xDC00 ∧ 0xDC00 ≤ c' ∧ c' < 0xE000 then
      (0x10000 + (c - 0xD800) * 0x400 + (c' - 0xDC00)) :: codePoints rest
    else (if 0xD800 ≤ c ∧ c < 0xE000 then 0xFFFD else c) :: codePoints (c' :: rest)

def utf8 (c : Nat) : Bytes :=
  (if c < 0x80 then [c]
  else if c < 0x800 then [0xC0 + c / 0x40, 0x80 + c % 0x40]
  else if c < 0x10000 then [0xE0 + c / 0x1000, 0x80 + c / 0x40 % 0x40, 0x80 + c % 0x40]
  else [0xF0 + c / 0x40000, 0x80 + c / 0x1000 % 0x40, 0x80 + c / 0x40 % 0x40,
    0x80 + c % 0x40]).map UInt8.ofNat

/-- `WideToUtf8` of a text whose length is an `int`.  It stands for what `WideCharToMultiByte` does
with it, which answers; a lone surrogate becomes U+FFFD. -/
def wideToUtf8 (w : Wide) : Bytes := (codePoints (w.map UInt16.toNat)).flatMap utf8

example : wideToUtf8 [0x41, 0x2026, 0xD83D, 0xDE00] =
    [0x41, 0xE2, 0x80, 0xA6, 0xF0, 0x9F, 0x98, 0x80] := by decide

example : utf8ToWide [0x41, 0xE2, 0x80, 0xA6, 0xFF] = [0x41, 0x2026, 0xFFFD] := by decide

end SteamSalesTray.Platform
