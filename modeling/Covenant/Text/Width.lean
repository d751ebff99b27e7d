import Covenant.Text.Mark

/-!
# The width of characters

How many columns a character takes on a screen.  East Asian wide characters
and most pictures take two.  Control characters take none, nor do characters
that are drawn as a part of another one.  All others take one.  The tables are
those of Unicode 15.1.
-/

namespace Covenant.Text

/-! ## Characters without a width -/

def controls : CharSet where
  runs := [(0x0000, 32), (0x007f, 33)]

/-- Characters that leave no trace where they are not supported: the Unicode
property `Default_Ignorable_Code_Point`. -/
def ignorable : CharSet where
  alone := [0x00ad, 0x034f, 0x061c, 0x3164, 0xfeff, 0xffa0]
  runs := [(0x115f, 2), (0x17b4, 2), (0x180b, 5), (0x200b, 5), (0x202a, 5), (0x2060, 16),
    (0xfe00, 16), (0xfff0, 9), (0x1bca0, 4), (0x1d173, 8), (0xe0000, 4096)]

/-- The vowels and finals that complete a Hangul syllable. -/
def syllableParts : CharSet where
  runs := [(0x1160, 160), (0xd7b0, 23), (0xd7cb, 49)]

/-- Signs that are made of two marks. -/
def doubleMarks : CharSet where
  alone := [0x0cc0, 0x1b3b, 0x1b3d, 0x1b43]
  runs := [(0x0cc7, 2), (0x0cca, 2)]

/-- Signs that are drawn around or over the characters behind them. -/
def leadingMarks : CharSet where
  alone := [0x0605, 0x070f, 0x08e2, 0x0d4e, 0x1193f, 0x11941, 0x11a3a, 0x11d46, 0x11f02]
  runs := [(0x0890, 2), (0x111c2, 2), (0x11a84, 6)]

/-- The caret of Devanagari and the halfwidth sound marks, which are drawn
between or beside other characters. -/
def insertions : CharSet where
  alone := [0xa8fa]
  runs := [(0xff9e, 2)]

/-- Does the character take no column of its own? -/
def isZeroWidth (character : Char) : Bool :=
  [controls, ignorable, marks, doubleMarks, leadingMarks, syllableParts, insertions].any
    (·.contains character)

/-! ## Wide characters -/

/-- The characters whose East Asian width is wide or full. -/
def wide : CharSet where
  alone := [0x23f0, 0x23f3, 0x267f, 0x2693, 0x26a1, 0x26ce, 0x26d4, 0x26ea, 0x26f5, 0x26fa, 0x26fd,
    0x2705, 0x2728, 0x274c, 0x274e, 0x2757, 0x27b0, 0x27bf, 0x2b50, 0x2b55, 0x1b132, 0x1b155,
    0x1f004, 0x1f0cf, 0x1f18e, 0x1f3f4, 0x1f440, 0x1f57a, 0x1f5a4, 0x1f6cc, 0x1f7f0]
  runs := [(0x1100, 96), (0x231a, 2), (0x2329, 2), (0x23e9, 4), (0x25fd, 2), (0x2614, 2),
    (0x2648, 12), (0x26aa, 2), (0x26bd, 2), (0x26c4, 2), (0x26f2, 2), (0x270a, 2), (0x2753, 3),
    (0x2795, 3), (0x2b1b, 2), (0x2e80, 26), (0x2e9b, 89), (0x2f00, 214), (0x2ff0, 79), (0x3041, 86),
    (0x3099, 103), (0x3105, 43), (0x3131, 94), (0x3190, 84), (0x31ef, 48), (0x3220, 40),
    (0x3250, 7024), (0x4e00, 22157), (0xa490, 55), (0xa960, 29), (0xac00, 11172), (0xf900, 512),
    (0xfe10, 10), (0xfe30, 35), (0xfe54, 19), (0xfe68, 4), (0xff01, 96), (0xffe0, 7), (0x16fe0, 5),
    (0x16ff0, 2), (0x17000, 6136), (0x18800, 1238), (0x18d00, 9), (0x1aff0, 4), (0x1aff5, 7),
    (0x1affd, 2), (0x1b000, 291), (0x1b150, 3), (0x1b164, 4), (0x1b170, 396), (0x1f191, 10),
    (0x1f200, 3), (0x1f210, 44), (0x1f240, 9), (0x1f250, 2), (0x1f260, 6), (0x1f300, 33),
    (0x1f32d, 9), (0x1f337, 70), (0x1f37e, 22), (0x1f3a0, 43), (0x1f3cf, 5), (0x1f3e0, 17),
    (0x1f3f8, 71), (0x1f442, 187), (0x1f4ff, 63), (0x1f54b, 4), (0x1f550, 24), (0x1f595, 2),
    (0x1f5fb, 85), (0x1f680, 70), (0x1f6d0, 3), (0x1f6d5, 3), (0x1f6dc, 4), (0x1f6eb, 2),
    (0x1f6f4, 9), (0x1f7e0, 12), (0x1f90c, 47), (0x1f93c, 10), (0x1f947, 185), (0x1fa70, 13),
    (0x1fa80, 9), (0x1fa90, 46), (0x1fabf, 7), (0x1face, 14), (0x1fae0, 9), (0x1faf0, 9),
    (0x20000, 65534), (0x30000, 65534)]

/-- Characters with a width of their own: the filler that stands for the first
consonant of a Hangul syllable, two Khmer signs that are drawn as a row of
letters, and the Tifinagh joiner, which shows where it joins nothing. -/
def ownWidths : List (Char × Nat) :=
  [('\u115f', 2), ('\u17a4', 2), ('\u17d8', 3), ('\u2d7f', 1)]

/-! ## Width -/

def width (character : Char) : Nat :=
  if 32 ≤ character.toNat && character.toNat < 127 then
    1
  else
    match ownWidths.lookup character with
    | some columns => columns
    | none => if isZeroWidth character then 0 else if wide.contains character then 2 else 1

end Covenant.Text
