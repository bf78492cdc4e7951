/-!
# Letters of domain names

Domain names are compared in one form of each letter. Many characters are other forms of letters,
digits and signs of ASCII (wide, raised, circled, in a mathematical style, …); some are marks that
do not count; some cannot stand in a name.

* `letterForm`: the characters that a character stands for in a name.
* `isForbidden`: the characters that cannot stand in a name, once forms are settled.
* `isMark`: the characters that cannot start a label.
-/

namespace Tariff.Url

/-- Ranges of characters that are forms of ASCII characters, with the form of the first. In a long
range the letters, or digits, start again from the first after the last. -/
def formRanges : List (Nat × Nat × Char) :=
  [(0xa0, 0xa0, ' '), (0xaa, 0xaa, 'a'), (0xb2, 0xb3, '2'), (0xb9, 0xb9, '1'), (0xba, 0xba, 'o'),
    (0x17f, 0x17f, 's'), (0x2b0, 0x2b0, 'h'), (0x2b2, 0x2b2, 'j'), (0x2b3, 0x2b3, 'r'),
    (0x2b7, 0x2b7, 'w'), (0x2b8, 0x2b8, 'y'), (0x2e1, 0x2e1, 'l'), (0x2e2, 0x2e2, 's'),
    (0x2e3, 0x2e3, 'x'), (0x37e, 0x37e, ';'), (0x1d2c, 0x1d2c, 'a'), (0x1d2e, 0x1d2e, 'b'),
    (0x1d30, 0x1d31, 'd'), (0x1d33, 0x1d3a, 'g'), (0x1d3c, 0x1d3c, 'o'), (0x1d3e, 0x1d3e, 'p'),
    (0x1d3f, 0x1d3f, 'r'), (0x1d40, 0x1d41, 't'), (0x1d42, 0x1d42, 'w'), (0x1d43, 0x1d43, 'a'),
    (0x1d47, 0x1d47, 'b'), (0x1d48, 0x1d49, 'd'), (0x1d4d, 0x1d4d, 'g'), (0x1d4f, 0x1d4f, 'k'),
    (0x1d50, 0x1d50, 'm'), (0x1d52, 0x1d52, 'o'), (0x1d56, 0x1d56, 'p'), (0x1d57, 0x1d58, 't'),
    (0x1d5b, 0x1d5b, 'v'), (0x1d62, 0x1d62, 'i'), (0x1d63, 0x1d63, 'r'), (0x1d64, 0x1d65, 'u'),
    (0x1d9c, 0x1d9c, 'c'), (0x1da0, 0x1da0, 'f'), (0x1dbb, 0x1dbb, 'z'), (0x2024, 0x2024, '.'),
    (0x202f, 0x202f, ' '), (0x205f, 0x205f, ' '), (0x2070, 0x2070, '0'), (0x2071, 0x2071, 'i'),
    (0x2074, 0x2079, '4'), (0x207f, 0x207f, 'n'), (0x2080, 0x2089, '0'), (0x2090, 0x2090, 'a'),
    (0x2091, 0x2091, 'e'), (0x2092, 0x2092, 'o'), (0x2093, 0x2093, 'x'), (0x2095, 0x2095, 'h'),
    (0x2096, 0x2099, 'k'), (0x209a, 0x209a, 'p'), (0x209b, 0x209c, 's'), (0x2102, 0x2102, 'c'),
    (0x210a, 0x210b, 'g'), (0x210c, 0x210c, 'h'), (0x210d, 0x210d, 'h'), (0x210e, 0x210e, 'h'),
    (0x2110, 0x2110, 'i'), (0x2111, 0x2111, 'i'), (0x2112, 0x2112, 'l'), (0x2113, 0x2113, 'l'),
    (0x2115, 0x2115, 'n'), (0x2119, 0x211b, 'p'), (0x211c, 0x211c, 'r'), (0x211d, 0x211d, 'r'),
    (0x2124, 0x2124, 'z'), (0x2128, 0x2128, 'z'), (0x212a, 0x212a, 'k'), (0x212c, 0x212d, 'b'),
    (0x212f, 0x212f, 'e'), (0x2130, 0x2131, 'e'), (0x2133, 0x2133, 'm'), (0x2134, 0x2134, 'o'),
    (0x2139, 0x2139, 'i'), (0x2145, 0x2145, 'd'), (0x2146, 0x2147, 'd'), (0x2148, 0x2149, 'i'),
    (0x2160, 0x2160, 'i'), (0x2164, 0x2164, 'v'), (0x2169, 0x2169, 'x'), (0x216c, 0x216c, 'l'),
    (0x216d, 0x216e, 'c'), (0x216f, 0x216f, 'm'), (0x2170, 0x2170, 'i'), (0x2174, 0x2174, 'v'),
    (0x2179, 0x2179, 'x'), (0x217c, 0x217c, 'l'), (0x217d, 0x217e, 'c'), (0x217f, 0x217f, 'm'),
    (0x2460, 0x2468, '1'), (0x24b6, 0x24e9, 'a'), (0x24ea, 0x24ea, '0'), (0x2c7c, 0x2c7c, 'j'),
    (0x2c7d, 0x2c7d, 'v'), (0x3000, 0x3000, ' '), (0x3002, 0x3002, '.'), (0xa7f2, 0xa7f2, 'c'),
    (0xa7f3, 0xa7f3, 'f'), (0xa7f4, 0xa7f4, 'q'), (0xfe13, 0xfe14, ':'), (0xfe16, 0xfe16, '?'),
    (0xfe47, 0xfe47, '['), (0xfe48, 0xfe48, ']'), (0xfe52, 0xfe52, '.'), (0xfe55, 0xfe55, ':'),
    (0xfe56, 0xfe56, '?'), (0xfe5f, 0xfe5f, '#'), (0xfe63, 0xfe63, '-'), (0xfe64, 0xfe64, '<'),
    (0xfe65, 0xfe65, '>'), (0xfe68, 0xfe68, '\\'), (0xfe6a, 0xfe6a, '%'), (0xfe6b, 0xfe6b, '@'),
    (0xff01, 0xff20, '!'), (0xff21, 0xff3a, 'a'), (0xff3b, 0xff5e, '['), (0xff61, 0xff61, '.'),
    (0x1d400, 0x1d6a3, 'a'), (0x1d7ce, 0x1d7ff, '0'), (0x1f12b, 0x1f12b, 'c'),
    (0x1f12c, 0x1f12c, 'r'), (0x1f130, 0x1f149, 'a'), (0x1fbf0, 0x1fbf9, '0')]

/-- Ranges of marks that do not count in a name. -/
def silentRanges : List (Nat × Nat) :=
  [(0xad, 0xad), (0x34f, 0x34f), (0x180b, 0x180d), (0x180f, 0x180f), (0x200b, 0x200b),
    (0x2060, 0x2060), (0x2064, 0x2064), (0xfe00, 0xfe0f), (0xfeff, 0xfeff), (0x1bca0, 0x1bca3),
    (0xe0100, 0xe01ef)]

/-- Ranges of characters beyond ASCII that cannot stand in a name: controls, directions, joiners,
stand-ins, private characters and codes without a character. -/
def forbiddenRanges : List (Nat × Nat) :=
  [(0x80, 0x9f), (0x61c, 0x61c), (0x180e, 0x180e), (0x1680, 0x1680), (0x200c, 0x200f),
    (0x2028, 0x202e), (0x2061, 0x2063), (0x2065, 0x206f), (0x2ff0, 0x2fff), (0xe000, 0xf8ff),
    (0xfdd0, 0xfdef), (0xfff0, 0xffff), (0x1fffe, 0x1ffff), (0x2fffe, 0x2ffff), (0x3fffe, 0xe00ff),
    (0xe01f0, 0x10ffff)]

/-- Ranges of marks that belong to the character in front of them. -/
def markRanges : List (Nat × Nat) :=
  [(0x300, 0x36f), (0x483, 0x489), (0x591, 0x5bd), (0x610, 0x61a), (0x64b, 0x65f), (0x900, 0x903),
    (0x93a, 0x93c), (0x93e, 0x94f), (0xe31, 0xe31), (0xe34, 0xe3a), (0xe47, 0xe4e),
    (0x1ab0, 0x1aff), (0x1dc0, 0x1dff), (0x20d0, 0x20ff), (0x302a, 0x302f), (0x3099, 0x309a),
    (0xfe20, 0xfe2f)]

/-- Whether a character lies in one of some ranges. -/
def inRanges (ranges : List (Nat × Nat)) (c : Char) : Bool :=
  ranges.any fun (first, last) => first ≤ c.toNat && c.toNat ≤ last

/-- Where the characters begin that a form belongs to, and how many they are: the letters, the
digits, or all others. -/
def formCycle (form : Char) : Nat × Nat :=
  if form.isLower then (97, 26) else if form.isDigit then (48, 10) else (0, 128)

/-- The ASCII character that lies `steps` after a form, in the letters or digits around it. -/
def formAfter (form : Char) (steps : Nat) : Char :=
  let (start, count) := formCycle form
  Char.ofNat (start + (form.toNat - start + steps) % count)

/-- The ASCII character that a character is another form of. -/
def asciiForm? (c : Char) : Option Char :=
  if 0x2000 ≤ c.toNat ∧ c.toNat ≤ 0x200a then some ' '
  else
    (formRanges.find? fun (first, last, _) => first ≤ c.toNat && c.toNat ≤ last).map
      fun (first, _, form) => formAfter form (c.toNat - first)

/-- The characters that a character stands for in a name. -/
def letterForm (c : Char) : List Char :=
  if c.toNat < 128 then [c.toLower]
  else if inRanges silentRanges c then []
  else [(asciiForm? c).getD c]

/-- The signs of ASCII that cannot stand in a name. -/
def forbiddenSigns : List Char :=
  ['%', '#', '/', ':', '<', '>', '?', '@', '[', '\\', ']', '^', '|']

/-- Whether a character cannot stand in a name. -/
def isForbidden (c : Char) : Bool :=
  c.toNat ≤ 32 || c.toNat == 127 || forbiddenSigns.contains c || inRanges forbiddenRanges c

/-- Whether a character cannot start a label. -/
def isMark (c : Char) : Bool :=
  inRanges markRanges c

end Tariff.Url
