import LiveForm.Text.Case

/-!
# Letters in any case

Two characters are kin if they are one letter but for its case. Most letters have a small and a
capital form; some have more, such as the Greek sigma with its final form.
-/

namespace LiveForm.Text

/-- The one character that a list holds, or another. -/
def soleOr (c : Char) : List Char → Char
  | [d] => d
  | _ => c

/-- The capital letter with a dot, whose small form is written as two characters elsewhere. -/
def dottedCapital : Char := Char.ofNat 0x130

/-- A character in lower case, as one character. -/
def lowerOne (c : Char) : Char :=
  if c == dottedCapital then 'i' else soleOr c (lowerChar c)

/-- Letters whose forms are not just what raising and lowering give. -/
def families : List (List Nat) :=
  [[0x49, 0x69, 0x130, 0x131], [0x4b, 0x6b, 0x212a], [0x53, 0x73, 0x17f], [0xb5, 0x39c, 0x3bc],
   [0xc5, 0xe5, 0x212b], [0xdf, 0x1e9e], [0x1c4, 0x1c5, 0x1c6], [0x1c7, 0x1c8, 0x1c9], [0x1ca,
   0x1cb, 0x1cc], [0x1f1, 0x1f2, 0x1f3], [0x345, 0x399, 0x3b9, 0x1fbe], [0x390, 0x1fd3], [0x392,
   0x3b2, 0x3d0], [0x395, 0x3b5, 0x3f5], [0x398, 0x3b8, 0x3d1, 0x3f4], [0x39a, 0x3ba, 0x3f0],
   [0x3a0, 0x3c0, 0x3d6], [0x3a1, 0x3c1, 0x3f1], [0x3a3, 0x3c2, 0x3c3], [0x3a6, 0x3c6, 0x3d5],
   [0x3a9, 0x3c9, 0x2126], [0x3b0, 0x1fe3], [0x412, 0x432, 0x1c80], [0x414, 0x434, 0x1c81],
   [0x41e, 0x43e, 0x1c82], [0x421, 0x441, 0x1c83], [0x422, 0x442, 0x1c84, 0x1c85], [0x42a, 0x44a,
   0x1c86], [0x462, 0x463, 0x1c87], [0x1c88, 0xa64a, 0xa64b], [0x1e60, 0x1e61, 0x1e9b], [0x1f80,
   0x1f88], [0x1f81, 0x1f89], [0x1f82, 0x1f8a], [0x1f83, 0x1f8b], [0x1f84, 0x1f8c], [0x1f85,
   0x1f8d], [0x1f86, 0x1f8e], [0x1f87, 0x1f8f], [0x1f90, 0x1f98], [0x1f91, 0x1f99], [0x1f92,
   0x1f9a], [0x1f93, 0x1f9b], [0x1f94, 0x1f9c], [0x1f95, 0x1f9d], [0x1f96, 0x1f9e], [0x1f97,
   0x1f9f], [0x1fa0, 0x1fa8], [0x1fa1, 0x1fa9], [0x1fa2, 0x1faa], [0x1fa3, 0x1fab], [0x1fa4,
   0x1fac], [0x1fa5, 0x1fad], [0x1fa6, 0x1fae], [0x1fa7, 0x1faf], [0x1fb3, 0x1fbc], [0x1fc3,
   0x1fcc], [0x1ff3, 0x1ffc], [0xfb05, 0xfb06]]

/-- A character and what raising and lowering give. -/
def forms (c : Char) : List Char :=
  [c, soleOr c (lowerChar c), soleOr c (raiseChar c)]

/-- The characters that are one letter with a character, itself among them. -/
def kin (c : Char) : List Char :=
  match families.find? (List.contains · c.toNat) with
  | some family => family.map Char.ofNat
  | none => forms c

/-- A letter of ASCII in both cases, or any other character. -/
def kinOfAscii (c : Char) : List Char :=
  [c, c.toLower, c.toUpper]

/-- A character is kin to itself. -/
theorem mem_kin_self (c : Char) : c ∈ kin c := by
  unfold kin
  split
  · next family h =>
    have hc : c.toNat ∈ family := by simpa using List.find?_some h
    exact List.mem_map.2 ⟨c.toNat, hc, Char.ofNat_toNat c⟩
  · simp [forms]

end LiveForm.Text
