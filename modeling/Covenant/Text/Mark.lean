import Covenant.Text.CharSet

/-!
# Marks

A mark is drawn together with the character before it: the characters with the
Unicode `Grapheme_Extend` property, without the halfwidth sound marks, which
are letters of their own.
-/

namespace Covenant.Text

/-- The marks of Unicode 15.1. -/
def marks : CharSet where
  alone := [0x05bf, 0x05c7, 0x0670, 0x0711, 0x07fd, 0x093a, 0x093c, 0x094d, 0x0981, 0x09bc, 0x09be,
    0x09cd, 0x09d7, 0x09fe, 0x0a3c, 0x0a51, 0x0a75, 0x0abc, 0x0acd, 0x0b01, 0x0b3c, 0x0b4d, 0x0b82,
    0x0bbe, 0x0bc0, 0x0bcd, 0x0bd7, 0x0c00, 0x0c04, 0x0c3c, 0x0c81, 0x0cbc, 0x0cbf, 0x0cc2, 0x0cc6,
    0x0d3e, 0x0d4d, 0x0d57, 0x0d81, 0x0dca, 0x0dcf, 0x0dd6, 0x0ddf, 0x0e31, 0x0eb1, 0x0f35, 0x0f37,
    0x0f39, 0x0fc6, 0x1082, 0x108d, 0x109d, 0x17c6, 0x17dd, 0x180f, 0x18a9, 0x1932, 0x1a1b, 0x1a56,
    0x1a60, 0x1a62, 0x1a7f, 0x1b3c, 0x1b42, 0x1be6, 0x1bed, 0x1ced, 0x1cf4, 0x200c, 0x2d7f, 0xa802,
    0xa806, 0xa80b, 0xa82c, 0xa8ff, 0xa9b3, 0xa9e5, 0xaa43, 0xaa4c, 0xaa7c, 0xaab0, 0xaac1, 0xaaf6,
    0xabe5, 0xabe8, 0xabed, 0xfb1e, 0x101fd, 0x102e0, 0x10a3f, 0x11001, 0x11070, 0x110c2, 0x11173,
    0x111cf, 0x11234, 0x1123e, 0x11241, 0x112df, 0x1133e, 0x11340, 0x11357, 0x11446, 0x1145e,
    0x114b0, 0x114ba, 0x114bd, 0x115af, 0x1163d, 0x116ab, 0x116ad, 0x116b7, 0x11930, 0x1193e,
    0x11943, 0x119e0, 0x11a47, 0x11c3f, 0x11d3a, 0x11d47, 0x11d95, 0x11d97, 0x11f40, 0x11f42,
    0x13440, 0x16f4f, 0x16fe4, 0x1d165, 0x1da75, 0x1da84, 0x1e08f, 0x1e2ae]
  runs := [(0x0300, 112), (0x0483, 7), (0x0591, 45), (0x05c1, 2), (0x05c4, 2), (0x0610, 11),
    (0x064b, 21), (0x06d6, 7), (0x06df, 6), (0x06e7, 2), (0x06ea, 4), (0x0730, 27), (0x07a6, 11),
    (0x07eb, 9), (0x0816, 4), (0x081b, 9), (0x0825, 3), (0x0829, 5), (0x0859, 3), (0x0898, 8),
    (0x08ca, 24), (0x08e3, 32), (0x0941, 8), (0x0951, 7), (0x0962, 2), (0x09c1, 4), (0x09e2, 2),
    (0x0a01, 2), (0x0a41, 2), (0x0a47, 2), (0x0a4b, 3), (0x0a70, 2), (0x0a81, 2), (0x0ac1, 5),
    (0x0ac7, 2), (0x0ae2, 2), (0x0afa, 6), (0x0b3e, 2), (0x0b41, 4), (0x0b55, 3), (0x0b62, 2),
    (0x0c3e, 3), (0x0c46, 3), (0x0c4a, 4), (0x0c55, 2), (0x0c62, 2), (0x0ccc, 2), (0x0cd5, 2),
    (0x0ce2, 2), (0x0d00, 2), (0x0d3b, 2), (0x0d41, 4), (0x0d62, 2), (0x0dd2, 3), (0x0e34, 7),
    (0x0e47, 8), (0x0eb4, 9), (0x0ec8, 7), (0x0f18, 2), (0x0f71, 14), (0x0f80, 5), (0x0f86, 2),
    (0x0f8d, 11), (0x0f99, 36), (0x102d, 4), (0x1032, 6), (0x1039, 2), (0x103d, 2), (0x1058, 2),
    (0x105e, 3), (0x1071, 4), (0x1085, 2), (0x135d, 3), (0x1712, 3), (0x1732, 2), (0x1752, 2),
    (0x1772, 2), (0x17b4, 2), (0x17b7, 7), (0x17c9, 11), (0x180b, 3), (0x1885, 2), (0x1920, 3),
    (0x1927, 2), (0x1939, 3), (0x1a17, 2), (0x1a58, 7), (0x1a65, 8), (0x1a73, 10), (0x1ab0, 31),
    (0x1b00, 4), (0x1b34, 7), (0x1b6b, 9), (0x1b80, 2), (0x1ba2, 4), (0x1ba8, 2), (0x1bab, 3),
    (0x1be8, 2), (0x1bef, 3), (0x1c2c, 8), (0x1c36, 2), (0x1cd0, 3), (0x1cd4, 13), (0x1ce2, 7),
    (0x1cf8, 2), (0x1dc0, 64), (0x20d0, 33), (0x2cef, 3), (0x2de0, 32), (0x302a, 6), (0x3099, 2),
    (0xa66f, 4), (0xa674, 10), (0xa69e, 2), (0xa6f0, 2), (0xa825, 2), (0xa8c4, 2), (0xa8e0, 18),
    (0xa926, 8), (0xa947, 11), (0xa980, 3), (0xa9b6, 4), (0xa9bc, 2), (0xaa29, 6), (0xaa31, 2),
    (0xaa35, 2), (0xaab2, 3), (0xaab7, 2), (0xaabe, 2), (0xaaec, 2), (0xfe00, 16), (0xfe20, 16),
    (0x10376, 5), (0x10a01, 3), (0x10a05, 2), (0x10a0c, 4), (0x10a38, 3), (0x10ae5, 2),
    (0x10d24, 4), (0x10eab, 2), (0x10efd, 3), (0x10f46, 11), (0x10f82, 4), (0x11038, 15),
    (0x11073, 2), (0x1107f, 3), (0x110b3, 4), (0x110b9, 2), (0x11100, 3), (0x11127, 5),
    (0x1112d, 8), (0x11180, 2), (0x111b6, 9), (0x111c9, 4), (0x1122f, 3), (0x11236, 2),
    (0x112e3, 8), (0x11300, 2), (0x1133b, 2), (0x11366, 7), (0x11370, 5), (0x11438, 8),
    (0x11442, 3), (0x114b3, 6), (0x114bf, 2), (0x114c2, 2), (0x115b2, 4), (0x115bc, 2),
    (0x115bf, 2), (0x115dc, 2), (0x11633, 8), (0x1163f, 2), (0x116b0, 6), (0x1171d, 3),
    (0x11722, 4), (0x11727, 5), (0x1182f, 9), (0x11839, 2), (0x1193b, 2), (0x119d4, 4),
    (0x119da, 2), (0x11a01, 10), (0x11a33, 6), (0x11a3b, 4), (0x11a51, 6), (0x11a59, 3),
    (0x11a8a, 13), (0x11a98, 2), (0x11c30, 7), (0x11c38, 6), (0x11c92, 22), (0x11caa, 7),
    (0x11cb2, 2), (0x11cb5, 2), (0x11d31, 6), (0x11d3c, 2), (0x11d3f, 7), (0x11d90, 2),
    (0x11ef3, 2), (0x11f00, 2), (0x11f36, 5), (0x13447, 15), (0x16af0, 5), (0x16b30, 7),
    (0x16f8f, 4), (0x1bc9d, 2), (0x1cf00, 46), (0x1cf30, 23), (0x1d167, 3), (0x1d16e, 5),
    (0x1d17b, 8), (0x1d185, 7), (0x1d1aa, 4), (0x1d242, 3), (0x1da00, 55), (0x1da3b, 50),
    (0x1da9b, 5), (0x1daa1, 15), (0x1e000, 7), (0x1e008, 17), (0x1e01b, 7), (0x1e023, 2),
    (0x1e026, 5), (0x1e130, 7), (0x1e2ec, 4), (0x1e4ec, 4), (0x1e8d0, 7), (0x1e944, 7),
    (0xe0020, 96), (0xe0100, 240)]

/-- The marks that came with Unicode 16 and 17, and the older signs that were
counted as marks from then on. -/
def laterMarks : CharSet where
  alone := [0x0897, 0x0cc0, 0x1715, 0x1734, 0x1b3b, 0x1b3d, 0x1baa, 0xa953, 0xa9c0, 0x111c0,
    0x11235, 0x1134d, 0x113b8, 0x113c2, 0x113c5, 0x113d2, 0x116b6, 0x1193d, 0x11b60, 0x11b66,
    0x11f41, 0x11f5a, 0x1d166, 0x1d16d, 0x1e6e3, 0x1e6e6, 0x1e6f5]
  runs := [(0x0cc7, 2), (0x0cca, 2), (0x1acf, 15), (0x1ae0, 12), (0x1b43, 2), (0x1bf2, 2),
    (0x10d69, 5), (0x10efa, 3), (0x113bb, 6), (0x113c7, 3), (0x113ce, 3), (0x113e1, 2),
    (0x11b62, 3), (0x1611e, 12), (0x1612d, 3), (0x16ff0, 2), (0x1e5ee, 2), (0x1e6ee, 2)]

end Covenant.Text
