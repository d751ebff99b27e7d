import Covenant.Text.CharSet

/-!
# Unprintable characters

What cannot be told from its neighbours when it is printed: controls and
formats, blanks other than the space, and codes that are private or that
Unicode 17 gives to no character.
-/

namespace Covenant.Text

/-- The characters of the general categories C and Z, without the space. -/
def unprintable : CharSet where
  alone := [0x00ad, 0x038b, 0x038d, 0x03a2, 0x0530, 0x0590, 0x061c, 0x06dd, 0x083f, 0x085f, 0x08e2,
    0x0984, 0x09a9, 0x09b1, 0x09de, 0x0a04, 0x0a29, 0x0a31, 0x0a34, 0x0a37, 0x0a3d, 0x0a5d, 0x0a84,
    0x0a8e, 0x0a92, 0x0aa9, 0x0ab1, 0x0ab4, 0x0ac6, 0x0aca, 0x0b00, 0x0b04, 0x0b29, 0x0b31, 0x0b34,
    0x0b5e, 0x0b84, 0x0b91, 0x0b9b, 0x0b9d, 0x0bc9, 0x0c0d, 0x0c11, 0x0c29, 0x0c45, 0x0c49, 0x0c57,
    0x0c5b, 0x0c8d, 0x0c91, 0x0ca9, 0x0cb4, 0x0cc5, 0x0cc9, 0x0cdf, 0x0cf0, 0x0d0d, 0x0d11, 0x0d45,
    0x0d49, 0x0d80, 0x0d84, 0x0db2, 0x0dbc, 0x0dd5, 0x0dd7, 0x0e83, 0x0e85, 0x0e8b, 0x0ea4, 0x0ea6,
    0x0ec5, 0x0ec7, 0x0ecf, 0x0f48, 0x0f98, 0x0fbd, 0x0fcd, 0x10c6, 0x1249, 0x1257, 0x1259, 0x1289,
    0x12b1, 0x12bf, 0x12c1, 0x12d7, 0x1311, 0x1680, 0x176d, 0x1771, 0x180e, 0x191f, 0x1a5f, 0x1b4d,
    0x1f58, 0x1f5a, 0x1f5c, 0x1f5e, 0x1fb5, 0x1fc5, 0x1fdc, 0x1ff5, 0x208f, 0x2d26, 0x2da7, 0x2daf,
    0x2db7, 0x2dbf, 0x2dc7, 0x2dcf, 0x2dd7, 0x2ddf, 0x2e9a, 0x3000, 0x3040, 0x3130, 0x318f, 0x321f,
    0xa9ce, 0xa9ff, 0xab27, 0xab2f, 0xfb37, 0xfb3d, 0xfb3f, 0xfb42, 0xfb45, 0xfe53, 0xfe67, 0xfe75,
    0xffe7, 0x1000c, 0x10027, 0x1003b, 0x1003e, 0x1018f, 0x1039e, 0x1057b, 0x1058b, 0x10593,
    0x10596, 0x105a2, 0x105b2, 0x105ba, 0x10786, 0x107b1, 0x10809, 0x10836, 0x10856, 0x108f3,
    0x10a04, 0x10a14, 0x10a18, 0x10e7f, 0x10eaa, 0x110bd, 0x11135, 0x111e0, 0x11212, 0x11287,
    0x11289, 0x1128e, 0x1129e, 0x11304, 0x11329, 0x11331, 0x11334, 0x1133a, 0x1138a, 0x1138f,
    0x113b6, 0x113c1, 0x113c6, 0x113cb, 0x113d6, 0x1145c, 0x11914, 0x11917, 0x11936, 0x11c09,
    0x11c37, 0x11ca8, 0x11d07, 0x11d0a, 0x11d3b, 0x11d3e, 0x11d66, 0x11d69, 0x11d8f, 0x11d92,
    0x11f11, 0x1246f, 0x16a5f, 0x16abf, 0x16b5a, 0x16b62, 0x1aff4, 0x1affc, 0x1afff, 0x1d455,
    0x1d49d, 0x1d4ad, 0x1d4ba, 0x1d4bc, 0x1d4c4, 0x1d506, 0x1d515, 0x1d51d, 0x1d53a, 0x1d53f,
    0x1d545, 0x1d551, 0x1daa0, 0x1e007, 0x1e022, 0x1e025, 0x1e6df, 0x1e7e7, 0x1e7ec, 0x1e7ef,
    0x1e7ff, 0x1ee04, 0x1ee20, 0x1ee23, 0x1ee28, 0x1ee33, 0x1ee38, 0x1ee3a, 0x1ee48, 0x1ee4a,
    0x1ee4c, 0x1ee50, 0x1ee53, 0x1ee58, 0x1ee5a, 0x1ee5c, 0x1ee5e, 0x1ee60, 0x1ee63, 0x1ee6b,
    0x1ee73, 0x1ee78, 0x1ee7d, 0x1ee7f, 0x1ee8a, 0x1eea4, 0x1eeaa, 0x1f0c0, 0x1f0d0, 0x1fac7,
    0x1fb93]
  runs := [(0x0000, 32), (0x007f, 34), (0x0378, 2), (0x0380, 4), (0x0557, 2), (0x058b, 2),
    (0x05c8, 8), (0x05eb, 4), (0x05f5, 17), (0x070e, 2), (0x074b, 2), (0x07b2, 14), (0x07fb, 2),
    (0x082e, 2), (0x085c, 2), (0x086b, 5), (0x0890, 7), (0x098d, 2), (0x0991, 2), (0x09b3, 3),
    (0x09ba, 2), (0x09c5, 2), (0x09c9, 2), (0x09cf, 8), (0x09d8, 4), (0x09e4, 2), (0x09ff, 2),
    (0x0a0b, 4), (0x0a11, 2), (0x0a3a, 2), (0x0a43, 4), (0x0a49, 2), (0x0a4e, 3), (0x0a52, 7),
    (0x0a5f, 7), (0x0a77, 10), (0x0aba, 2), (0x0ace, 2), (0x0ad1, 15), (0x0ae4, 2), (0x0af2, 7),
    (0x0b0d, 2), (0x0b11, 2), (0x0b3a, 2), (0x0b45, 2), (0x0b49, 2), (0x0b4e, 7), (0x0b58, 4),
    (0x0b64, 2), (0x0b78, 10), (0x0b8b, 3), (0x0b96, 3), (0x0ba0, 3), (0x0ba5, 3), (0x0bab, 3),
    (0x0bba, 4), (0x0bc3, 3), (0x0bce, 2), (0x0bd1, 6), (0x0bd8, 14), (0x0bfb, 5), (0x0c3a, 2),
    (0x0c4e, 7), (0x0c5e, 2), (0x0c64, 2), (0x0c70, 7), (0x0cba, 2), (0x0cce, 7), (0x0cd7, 5),
    (0x0ce4, 2), (0x0cf4, 12), (0x0d50, 4), (0x0d64, 2), (0x0d97, 3), (0x0dbe, 2), (0x0dc7, 3),
    (0x0dcb, 4), (0x0de0, 6), (0x0df0, 2), (0x0df5, 12), (0x0e3b, 4), (0x0e5c, 37), (0x0ebe, 2),
    (0x0eda, 2), (0x0ee0, 32), (0x0f6d, 4), (0x0fdb, 37), (0x10c8, 5), (0x10ce, 2), (0x124e, 2),
    (0x125e, 2), (0x128e, 2), (0x12b6, 2), (0x12c6, 2), (0x1316, 2), (0x135b, 2), (0x137d, 3),
    (0x139a, 6), (0x13f6, 2), (0x13fe, 2), (0x169d, 3), (0x16f9, 7), (0x1716, 9), (0x1737, 9),
    (0x1754, 12), (0x1774, 12), (0x17de, 2), (0x17ea, 6), (0x17fa, 6), (0x181a, 6), (0x1879, 7),
    (0x18ab, 5), (0x18f6, 10), (0x192c, 4), (0x193c, 4), (0x1941, 3), (0x196e, 2), (0x1975, 11),
    (0x19ac, 4), (0x19ca, 6), (0x19db, 3), (0x1a1c, 2), (0x1a7d, 2), (0x1a8a, 6), (0x1a9a, 6),
    (0x1aae, 2), (0x1ade, 2), (0x1aec, 20), (0x1bf4, 8), (0x1c38, 3), (0x1c4a, 3), (0x1c8b, 5),
    (0x1cbb, 2), (0x1cc8, 8), (0x1cfb, 5), (0x1f16, 2), (0x1f1e, 2), (0x1f46, 2), (0x1f4e, 2),
    (0x1f7e, 2), (0x1fd4, 2), (0x1ff0, 2), (0x1fff, 17), (0x2028, 8), (0x205f, 17), (0x2072, 2),
    (0x209d, 3), (0x20c2, 14), (0x20f1, 15), (0x218c, 4), (0x242a, 22), (0x244b, 21), (0x2b74, 2),
    (0x2cf4, 5), (0x2d28, 5), (0x2d2e, 2), (0x2d68, 7), (0x2d71, 14), (0x2d97, 9), (0x2e5e, 34),
    (0x2ef4, 12), (0x2fd6, 26), (0x3097, 2), (0x3100, 5), (0x31e6, 9), (0xa48d, 3), (0xa4c7, 9),
    (0xa62c, 20), (0xa6f8, 8), (0xa7dd, 20), (0xa82d, 3), (0xa83a, 6), (0xa878, 8), (0xa8c6, 8),
    (0xa8da, 6), (0xa954, 11), (0xa97d, 3), (0xa9da, 4), (0xaa37, 9), (0xaa4e, 2), (0xaa5a, 2),
    (0xaac3, 24), (0xaaf7, 10), (0xab07, 2), (0xab0f, 2), (0xab17, 9), (0xab6c, 4), (0xabee, 2),
    (0xabfa, 6), (0xd7a4, 12), (0xd7c7, 4), (0xd7fc, 8452), (0xfa6e, 2), (0xfada, 38), (0xfb07, 12),
    (0xfb18, 5), (0xfdd0, 32), (0xfe1a, 6), (0xfe6c, 4), (0xfefd, 4), (0xffbf, 3), (0xffc8, 2),
    (0xffd0, 2), (0xffd8, 2), (0xffdd, 3), (0xffef, 13), (0xfffe, 2), (0x1004e, 2), (0x1005e, 34),
    (0x100fb, 5), (0x10103, 4), (0x10134, 3), (0x1019d, 3), (0x101a1, 47), (0x101fe, 130),
    (0x1029d, 3), (0x102d1, 15), (0x102fc, 4), (0x10324, 9), (0x1034b, 5), (0x1037b, 5),
    (0x103c4, 4), (0x103d6, 42), (0x1049e, 2), (0x104aa, 6), (0x104d4, 4), (0x104fc, 4),
    (0x10528, 8), (0x10564, 11), (0x105bd, 3), (0x105f4, 12), (0x10737, 9), (0x10756, 10),
    (0x10768, 24), (0x107bb, 69), (0x10806, 2), (0x10839, 3), (0x1083d, 2), (0x1089f, 8),
    (0x108b0, 48), (0x108f6, 5), (0x1091c, 3), (0x1093a, 5), (0x1095a, 38), (0x109b8, 4),
    (0x109d0, 2), (0x10a07, 5), (0x10a36, 2), (0x10a3b, 4), (0x10a49, 7), (0x10a59, 7),
    (0x10aa0, 32), (0x10ae7, 4), (0x10af7, 9), (0x10b36, 3), (0x10b56, 2), (0x10b73, 5),
    (0x10b92, 7), (0x10b9d, 12), (0x10bb0, 80), (0x10c49, 55), (0x10cb3, 13), (0x10cf3, 7),
    (0x10d28, 8), (0x10d3a, 6), (0x10d66, 3), (0x10d86, 8), (0x10d90, 208), (0x10eae, 2),
    (0x10eb2, 16), (0x10ec8, 8), (0x10ed9, 33), (0x10f28, 8), (0x10f5a, 22), (0x10f8a, 38),
    (0x10fcc, 20), (0x10ff7, 9), (0x1104e, 4), (0x11076, 9), (0x110c3, 13), (0x110e9, 7),
    (0x110fa, 6), (0x11148, 8), (0x11177, 9), (0x111f5, 11), (0x11242, 62), (0x112aa, 6),
    (0x112eb, 5), (0x112fa, 6), (0x1130d, 2), (0x11311, 2), (0x11345, 2), (0x11349, 2),
    (0x1134e, 2), (0x11351, 6), (0x11358, 5), (0x11364, 2), (0x1136d, 3), (0x11375, 11),
    (0x1138c, 2), (0x113c3, 2), (0x113d9, 8), (0x113e3, 29), (0x11462, 30), (0x114c8, 8),
    (0x114da, 166), (0x115b6, 2), (0x115de, 34), (0x11645, 11), (0x1165a, 6), (0x1166d, 19),
    (0x116ba, 6), (0x116ca, 6), (0x116e4, 28), (0x1171b, 2), (0x1172c, 4), (0x11747, 185),
    (0x1183c, 100), (0x118f3, 12), (0x11907, 2), (0x1190a, 2), (0x11939, 2), (0x11947, 9),
    (0x1195a, 70), (0x119a8, 2), (0x119d8, 2), (0x119e5, 27), (0x11a48, 8), (0x11aa3, 13),
    (0x11af9, 7), (0x11b0a, 86), (0x11b68, 88), (0x11be2, 14), (0x11bfa, 6), (0x11c46, 10),
    (0x11c6d, 3), (0x11c90, 2), (0x11cb7, 73), (0x11d37, 3), (0x11d48, 8), (0x11d5a, 6),
    (0x11d99, 7), (0x11daa, 6), (0x11ddc, 4), (0x11dea, 246), (0x11ef9, 7), (0x11f3b, 3),
    (0x11f5b, 85), (0x11fb1, 15), (0x11ff2, 13), (0x1239a, 102), (0x12475, 11), (0x12544, 2636),
    (0x12ff3, 13), (0x13430, 16), (0x13456, 10), (0x143fb, 5), (0x14647, 6841), (0x1613a, 1734),
    (0x16a39, 7), (0x16a6a, 4), (0x16aca, 6), (0x16aee, 2), (0x16af6, 10), (0x16b46, 10),
    (0x16b78, 5), (0x16b90, 432), (0x16d7a, 198), (0x16e9b, 5), (0x16eb9, 2), (0x16ed4, 44),
    (0x16f4b, 4), (0x16f88, 7), (0x16fa0, 64), (0x16fe5, 11), (0x16ff7, 9), (0x18cd6, 41),
    (0x18d1f, 97), (0x18df3, 8701), (0x1b123, 15), (0x1b133, 29), (0x1b153, 2), (0x1b156, 14),
    (0x1b168, 8), (0x1b2fc, 2308), (0x1bc6b, 5), (0x1bc7d, 3), (0x1bc89, 7), (0x1bc9a, 2),
    (0x1bca0, 3936), (0x1ccfd, 3), (0x1ceb4, 6), (0x1ced1, 15), (0x1cef1, 15), (0x1cf2e, 2),
    (0x1cf47, 9), (0x1cfc4, 60), (0x1d0f6, 10), (0x1d127, 2), (0x1d173, 8), (0x1d1eb, 21),
    (0x1d246, 122), (0x1d2d4, 12), (0x1d2f4, 12), (0x1d357, 9), (0x1d379, 135), (0x1d4a0, 2),
    (0x1d4a3, 2), (0x1d4a7, 2), (0x1d50b, 2), (0x1d547, 3), (0x1d6a6, 2), (0x1d7cc, 2),
    (0x1da8c, 15), (0x1dab0, 1104), (0x1df1f, 6), (0x1df2b, 213), (0x1e019, 2), (0x1e02b, 5),
    (0x1e06e, 33), (0x1e090, 112), (0x1e12d, 3), (0x1e13e, 2), (0x1e14a, 4), (0x1e150, 320),
    (0x1e2af, 17), (0x1e2fa, 5), (0x1e300, 464), (0x1e4fa, 214), (0x1e5fb, 4), (0x1e600, 192),
    (0x1e6f6, 8), (0x1e700, 224), (0x1e8c5, 2), (0x1e8d7, 41), (0x1e94c, 4), (0x1e95a, 4),
    (0x1e960, 785), (0x1ecb5, 76), (0x1ed3e, 194), (0x1ee25, 2), (0x1ee3c, 6), (0x1ee43, 4),
    (0x1ee55, 2), (0x1ee65, 2), (0x1ee9c, 5), (0x1eebc, 52), (0x1eef2, 270), (0x1f02c, 4),
    (0x1f094, 12), (0x1f0af, 2), (0x1f0f6, 10), (0x1f1ae, 56), (0x1f203, 13), (0x1f23c, 4),
    (0x1f249, 7), (0x1f252, 14), (0x1f266, 154), (0x1f6d9, 3), (0x1f6ed, 3), (0x1f6fd, 3),
    (0x1f7da, 6), (0x1f7ec, 4), (0x1f7f1, 15), (0x1f80c, 4), (0x1f848, 8), (0x1f85a, 6),
    (0x1f888, 8), (0x1f8ae, 2), (0x1f8bc, 4), (0x1f8c2, 14), (0x1f8d9, 39), (0x1fa58, 8),
    (0x1fa6e, 2), (0x1fa7d, 3), (0x1fa8b, 3), (0x1fac9, 4), (0x1fadd, 2), (0x1faeb, 4),
    (0x1faf9, 7), (0x1fbfb, 1029), (0x2a6e0, 32), (0x2b81e, 2), (0x2ceae, 2), (0x2ebe1, 15),
    (0x2ee5e, 2466), (0x2fa1e, 1506), (0x3134b, 5), (0x3347a, 707718), (0xe01f0, 196112)]

end Covenant.Text
