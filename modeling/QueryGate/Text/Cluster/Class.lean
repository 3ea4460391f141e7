/-!
# Classes of characters in clusters

What readers take for one character may be written with several: a letter with its
accents, a syllable, a flag, a joined pictograph. Which characters stay together
depends on their classes. The ranges of code points are those of Unicode 15.
-/

namespace QueryGate.Text

/-- The class of a character, as far as it decides about clusters. -/
inductive ClusterClass where
  | carriageReturn
  | lineFeed
  | control
  /-- A mark that belongs to the character before it. -/
  | extend
  /-- The mark between two consonants that makes them a conjunct. -/
  | linker
  | nonJoiner
  | joiner
  /-- A mark that belongs to the character before it and takes room of its own. -/
  | spacing
  /-- A mark that belongs to the character behind it. -/
  | prepend
  /-- A consonant that starts a Hangul syllable. -/
  | leading
  /-- A vowel of a Hangul syllable. -/
  | vowel
  /-- A consonant that ends a Hangul syllable. -/
  | trailing
  /-- A Hangul syllable without a consonant at its end. -/
  | openSyllable
  /-- A Hangul syllable with a consonant at its end. -/
  | closedSyllable
  /-- A letter of which two make a flag. -/
  | indicator
  | pictograph
  /-- A consonant of a script that has conjuncts. -/
  | consonant
  | other
  deriving DecidableEq, Repr

namespace ClusterClass

/-- Control and format characters beyond ASCII. -/
def controls : List (Nat × Nat) :=
  [(0x0080, 0x009f), (0x00ad, 0x00ad), (0x061c, 0x061c), (0x180e, 0x180e), (0x200b, 0x200b),
   (0x200e, 0x200f), (0x2028, 0x202e), (0x2060, 0x206f), (0xfeff, 0xfeff), (0xfff0, 0xfffb),
   (0x13430, 0x1343f), (0x1bca0, 0x1bca3), (0x1d173, 0x1d17a), (0xe0000, 0xe001f),
   (0xe0080, 0xe00ff), (0xe01f0, 0xe0fff)]

/-- Marks that belong to the character behind them. -/
def prepends : List (Nat × Nat) :=
  [(0x0600, 0x0605), (0x06dd, 0x06dd), (0x070f, 0x070f), (0x0890, 0x0891), (0x08e2, 0x08e2),
   (0x0d4e, 0x0d4e), (0x110bd, 0x110bd), (0x110cd, 0x110cd), (0x111c2, 0x111c3),
   (0x1193f, 0x1193f), (0x11941, 0x11941), (0x11a3a, 0x11a3a), (0x11a84, 0x11a89),
   (0x11d46, 0x11d46), (0x11f02, 0x11f02)]

/-- Consonants of the scripts that have conjuncts. -/
def consonants : List (Nat × Nat) :=
  [(0x0915, 0x0939), (0x0958, 0x095f), (0x0978, 0x097f), (0x0995, 0x09a8), (0x09aa, 0x09b0),
   (0x09b2, 0x09b2), (0x09b6, 0x09b9), (0x09dc, 0x09dd), (0x09df, 0x09df), (0x09f0, 0x09f1),
   (0x0a95, 0x0aa8), (0x0aaa, 0x0ab0), (0x0ab2, 0x0ab3), (0x0ab5, 0x0ab9), (0x0af9, 0x0af9),
   (0x0b15, 0x0b28), (0x0b2a, 0x0b30), (0x0b32, 0x0b33), (0x0b35, 0x0b39), (0x0b5c, 0x0b5d),
   (0x0b5f, 0x0b5f), (0x0b71, 0x0b71), (0x0c15, 0x0c28), (0x0c2a, 0x0c39), (0x0c58, 0x0c5a),
   (0x0d15, 0x0d3a)]

/-- Characters that are or may become pictographs. -/
def pictographs : List (Nat × Nat) :=
  [(0x00a9, 0x00a9), (0x00ae, 0x00ae), (0x203c, 0x203c), (0x2049, 0x2049), (0x2122, 0x2122),
   (0x2139, 0x2139), (0x2194, 0x2199), (0x21a9, 0x21aa), (0x231a, 0x231b), (0x2328, 0x2328),
   (0x2388, 0x2388), (0x23cf, 0x23cf), (0x23e9, 0x23f3), (0x23f8, 0x23fa), (0x24c2, 0x24c2),
   (0x25aa, 0x25ab), (0x25b6, 0x25b6), (0x25c0, 0x25c0), (0x25fb, 0x25fe), (0x2600, 0x2605),
   (0x2607, 0x2612), (0x2614, 0x2685), (0x2690, 0x2705), (0x2708, 0x2712), (0x2714, 0x2714),
   (0x2716, 0x2716), (0x271d, 0x271d), (0x2721, 0x2721), (0x2728, 0x2728), (0x2733, 0x2734),
   (0x2744, 0x2744), (0x2747, 0x2747), (0x274c, 0x274c), (0x274e, 0x274e), (0x2753, 0x2755),
   (0x2757, 0x2757), (0x2763, 0x2767), (0x2795, 0x2797), (0x27a1, 0x27a1), (0x27b0, 0x27b0),
   (0x27bf, 0x27bf), (0x2934, 0x2935), (0x2b05, 0x2b07), (0x2b1b, 0x2b1c), (0x2b50, 0x2b50),
   (0x2b55, 0x2b55), (0x3030, 0x3030), (0x303d, 0x303d), (0x3297, 0x3297), (0x3299, 0x3299),
   (0x1f000, 0x1f0ff), (0x1f10d, 0x1f10f), (0x1f12f, 0x1f12f), (0x1f16c, 0x1f171),
   (0x1f17e, 0x1f17f), (0x1f18e, 0x1f18e), (0x1f191, 0x1f19a), (0x1f1ad, 0x1f1e5),
   (0x1f201, 0x1f20f), (0x1f21a, 0x1f21a), (0x1f22f, 0x1f22f), (0x1f232, 0x1f23a),
   (0x1f23c, 0x1f23f), (0x1f249, 0x1f3fa), (0x1f400, 0x1f53d), (0x1f546, 0x1f64f),
   (0x1f680, 0x1f6ff), (0x1f774, 0x1f77f), (0x1f7d5, 0x1f7ff), (0x1f80c, 0x1f80f),
   (0x1f848, 0x1f84f), (0x1f85a, 0x1f85f), (0x1f888, 0x1f88f), (0x1f8ae, 0x1f8ff),
   (0x1f90c, 0x1f93a), (0x1f93c, 0x1f945), (0x1f947, 0x1faff), (0x1fc00, 0x1fffd)]

/-- Marks with room of their own. -/
def spacings : List (Nat × Nat) :=
  [(0x0903, 0x0903), (0x093b, 0x093b), (0x093e, 0x0940), (0x0949, 0x094c), (0x094e, 0x094f),
   (0x0982, 0x0983), (0x09bf, 0x09c0), (0x09c7, 0x09c8), (0x09cb, 0x09cc), (0x0a03, 0x0a03),
   (0x0a3e, 0x0a40), (0x0a83, 0x0a83), (0x0abe, 0x0ac0), (0x0ac9, 0x0ac9), (0x0acb, 0x0acc),
   (0x0b02, 0x0b03), (0x0b40, 0x0b40), (0x0b47, 0x0b48), (0x0b4b, 0x0b4c), (0x0bbf, 0x0bbf),
   (0x0bc1, 0x0bc2), (0x0bc6, 0x0bc8), (0x0bca, 0x0bcc), (0x0c01, 0x0c03), (0x0c41, 0x0c44),
   (0x0c82, 0x0c83), (0x0cbe, 0x0cbe), (0x0cc0, 0x0cc1), (0x0cc3, 0x0cc4), (0x0cc7, 0x0cc8),
   (0x0cca, 0x0ccb), (0x0cf3, 0x0cf3), (0x0d02, 0x0d03), (0x0d3f, 0x0d40), (0x0d46, 0x0d48),
   (0x0d4a, 0x0d4c), (0x0d82, 0x0d83), (0x0dd0, 0x0dd1), (0x0dd8, 0x0dde), (0x0df2, 0x0df3),
   (0x0e33, 0x0e33), (0x0eb3, 0x0eb3), (0x0f3e, 0x0f3f), (0x0f7f, 0x0f7f), (0x1031, 0x1031),
   (0x103b, 0x103c), (0x1056, 0x1057), (0x1084, 0x1084), (0x1715, 0x1715), (0x1734, 0x1734),
   (0x17b6, 0x17b6), (0x17be, 0x17c5), (0x17c7, 0x17c8), (0x1923, 0x1926), (0x1929, 0x192b),
   (0x1930, 0x1931), (0x1933, 0x1938), (0x1a19, 0x1a1a), (0x1a55, 0x1a55), (0x1a57, 0x1a57),
   (0x1a6d, 0x1a72), (0x1b04, 0x1b04), (0x1b3b, 0x1b3b), (0x1b3d, 0x1b41), (0x1b43, 0x1b44),
   (0x1b82, 0x1b82), (0x1ba1, 0x1ba1), (0x1ba6, 0x1ba7), (0x1baa, 0x1baa), (0x1be7, 0x1be7),
   (0x1bea, 0x1bec), (0x1bee, 0x1bee), (0x1bf2, 0x1bf3), (0x1c24, 0x1c2b), (0x1c34, 0x1c35),
   (0x1ce1, 0x1ce1), (0x1cf7, 0x1cf7), (0xa823, 0xa824), (0xa827, 0xa827), (0xa880, 0xa881),
   (0xa8b4, 0xa8c3), (0xa952, 0xa953), (0xa983, 0xa983), (0xa9b4, 0xa9b5), (0xa9ba, 0xa9bb),
   (0xa9be, 0xa9c0), (0xaa2f, 0xaa30), (0xaa33, 0xaa34), (0xaa4d, 0xaa4d), (0xaaeb, 0xaaeb),
   (0xaaee, 0xaaef), (0xaaf5, 0xaaf5), (0xabe3, 0xabe4), (0xabe6, 0xabe7), (0xabe9, 0xabea),
   (0xabec, 0xabec), (0x11000, 0x11000), (0x11002, 0x11002), (0x11082, 0x11082),
   (0x110b0, 0x110b2), (0x110b7, 0x110b8), (0x1112c, 0x1112c), (0x11145, 0x11146),
   (0x11182, 0x11182), (0x111b3, 0x111b5), (0x111bf, 0x111c0), (0x111ce, 0x111ce),
   (0x1122c, 0x1122e), (0x11232, 0x11233), (0x11235, 0x11235), (0x112e0, 0x112e2),
   (0x11302, 0x11303), (0x1133f, 0x1133f), (0x11341, 0x11344), (0x11347, 0x11348),
   (0x1134b, 0x1134d), (0x11362, 0x11363), (0x11435, 0x11437), (0x11440, 0x11441),
   (0x11445, 0x11445), (0x114b1, 0x114b2), (0x114b9, 0x114b9), (0x114bb, 0x114bc),
   (0x114be, 0x114be), (0x114c1, 0x114c1), (0x115b0, 0x115b1), (0x115b8, 0x115bb),
   (0x115be, 0x115be), (0x11630, 0x11632), (0x1163b, 0x1163c), (0x1163e, 0x1163e),
   (0x116ac, 0x116ac), (0x116ae, 0x116af), (0x116b6, 0x116b6), (0x11726, 0x11726),
   (0x1182c, 0x1182e), (0x11838, 0x11838), (0x11931, 0x11935), (0x11937, 0x11938),
   (0x1193d, 0x1193d), (0x11940, 0x11940), (0x11942, 0x11942), (0x119d1, 0x119d3),
   (0x119dc, 0x119df), (0x119e4, 0x119e4), (0x11a39, 0x11a39), (0x11a57, 0x11a58),
   (0x11a97, 0x11a97), (0x11c2f, 0x11c2f), (0x11c3e, 0x11c3e), (0x11ca9, 0x11ca9),
   (0x11cb1, 0x11cb1), (0x11cb4, 0x11cb4), (0x11d8a, 0x11d8e), (0x11d93, 0x11d94),
   (0x11d96, 0x11d96), (0x11ef5, 0x11ef6), (0x11f03, 0x11f03), (0x11f34, 0x11f35),
   (0x11f3e, 0x11f3f), (0x11f41, 0x11f41), (0x16f51, 0x16f87), (0x16ff0, 0x16ff1),
   (0x1d166, 0x1d166), (0x1d16d, 0x1d16d)]

/-- Marks without room of their own, linkers and the non-joiner apart. -/
def extenders : List (Nat × Nat) :=
  [(0x0300, 0x036f), (0x0483, 0x0489), (0x0591, 0x05bd), (0x05bf, 0x05bf), (0x05c1, 0x05c2),
   (0x05c4, 0x05c5), (0x05c7, 0x05c7), (0x0610, 0x061a), (0x064b, 0x065f), (0x0670, 0x0670),
   (0x06d6, 0x06dc), (0x06df, 0x06e4), (0x06e7, 0x06e8), (0x06ea, 0x06ed), (0x0711, 0x0711),
   (0x0730, 0x074a), (0x07a6, 0x07b0), (0x07eb, 0x07f3), (0x07fd, 0x07fd), (0x0816, 0x0819),
   (0x081b, 0x0823), (0x0825, 0x0827), (0x0829, 0x082d), (0x0859, 0x085b), (0x0898, 0x089f),
   (0x08ca, 0x08e1), (0x08e3, 0x0902), (0x093a, 0x093a), (0x093c, 0x093c), (0x0941, 0x0948),
   (0x0951, 0x0957), (0x0962, 0x0963), (0x0981, 0x0981), (0x09bc, 0x09bc), (0x09be, 0x09be),
   (0x09c1, 0x09c4), (0x09d7, 0x09d7), (0x09e2, 0x09e3), (0x09fe, 0x09fe), (0x0a01, 0x0a02),
   (0x0a3c, 0x0a3c), (0x0a41, 0x0a42), (0x0a47, 0x0a48), (0x0a4b, 0x0a4d), (0x0a51, 0x0a51),
   (0x0a70, 0x0a71), (0x0a75, 0x0a75), (0x0a81, 0x0a82), (0x0abc, 0x0abc), (0x0ac1, 0x0ac5),
   (0x0ac7, 0x0ac8), (0x0ae2, 0x0ae3), (0x0afa, 0x0aff), (0x0b01, 0x0b01), (0x0b3c, 0x0b3c),
   (0x0b3e, 0x0b3f), (0x0b41, 0x0b44), (0x0b55, 0x0b57), (0x0b62, 0x0b63), (0x0b82, 0x0b82),
   (0x0bbe, 0x0bbe), (0x0bc0, 0x0bc0), (0x0bcd, 0x0bcd), (0x0bd7, 0x0bd7), (0x0c00, 0x0c00),
   (0x0c04, 0x0c04), (0x0c3c, 0x0c3c), (0x0c3e, 0x0c40), (0x0c46, 0x0c48), (0x0c4a, 0x0c4c),
   (0x0c55, 0x0c56), (0x0c62, 0x0c63), (0x0c81, 0x0c81), (0x0cbc, 0x0cbc), (0x0cbf, 0x0cbf),
   (0x0cc2, 0x0cc2), (0x0cc6, 0x0cc6), (0x0ccc, 0x0ccd), (0x0cd5, 0x0cd6), (0x0ce2, 0x0ce3),
   (0x0d00, 0x0d01), (0x0d3b, 0x0d3c), (0x0d3e, 0x0d3e), (0x0d41, 0x0d44), (0x0d57, 0x0d57),
   (0x0d62, 0x0d63), (0x0d81, 0x0d81), (0x0dca, 0x0dca), (0x0dcf, 0x0dcf), (0x0dd2, 0x0dd4),
   (0x0dd6, 0x0dd6), (0x0ddf, 0x0ddf), (0x0e31, 0x0e31), (0x0e34, 0x0e3a), (0x0e47, 0x0e4e),
   (0x0eb1, 0x0eb1), (0x0eb4, 0x0ebc), (0x0ec8, 0x0ece), (0x0f18, 0x0f19), (0x0f35, 0x0f35),
   (0x0f37, 0x0f37), (0x0f39, 0x0f39), (0x0f71, 0x0f7e), (0x0f80, 0x0f84), (0x0f86, 0x0f87),
   (0x0f8d, 0x0f97), (0x0f99, 0x0fbc), (0x0fc6, 0x0fc6), (0x102d, 0x1030), (0x1032, 0x1037),
   (0x1039, 0x103a), (0x103d, 0x103e), (0x1058, 0x1059), (0x105e, 0x1060), (0x1071, 0x1074),
   (0x1082, 0x1082), (0x1085, 0x1086), (0x108d, 0x108d), (0x109d, 0x109d), (0x135d, 0x135f),
   (0x1712, 0x1714), (0x1732, 0x1733), (0x1752, 0x1753), (0x1772, 0x1773), (0x17b4, 0x17b5),
   (0x17b7, 0x17bd), (0x17c6, 0x17c6), (0x17c9, 0x17d3), (0x17dd, 0x17dd), (0x180b, 0x180d),
   (0x180f, 0x180f), (0x1885, 0x1886), (0x18a9, 0x18a9), (0x1920, 0x1922), (0x1927, 0x1928),
   (0x1932, 0x1932), (0x1939, 0x193b), (0x1a17, 0x1a18), (0x1a1b, 0x1a1b), (0x1a56, 0x1a56),
   (0x1a58, 0x1a5e), (0x1a60, 0x1a60), (0x1a62, 0x1a62), (0x1a65, 0x1a6c), (0x1a73, 0x1a7c),
   (0x1a7f, 0x1a7f), (0x1ab0, 0x1ace), (0x1b00, 0x1b03), (0x1b34, 0x1b3a), (0x1b3c, 0x1b3c),
   (0x1b42, 0x1b42), (0x1b6b, 0x1b73), (0x1b80, 0x1b81), (0x1ba2, 0x1ba5), (0x1ba8, 0x1ba9),
   (0x1bab, 0x1bad), (0x1be6, 0x1be6), (0x1be8, 0x1be9), (0x1bed, 0x1bed), (0x1bef, 0x1bf1),
   (0x1c2c, 0x1c33), (0x1c36, 0x1c37), (0x1cd0, 0x1cd2), (0x1cd4, 0x1ce0), (0x1ce2, 0x1ce8),
   (0x1ced, 0x1ced), (0x1cf4, 0x1cf4), (0x1cf8, 0x1cf9), (0x1dc0, 0x1dff), (0x20d0, 0x20f0),
   (0x2cef, 0x2cf1), (0x2d7f, 0x2d7f), (0x2de0, 0x2dff), (0x302a, 0x302f), (0x3099, 0x309a),
   (0xa66f, 0xa672), (0xa674, 0xa67d), (0xa69e, 0xa69f), (0xa6f0, 0xa6f1), (0xa802, 0xa802),
   (0xa806, 0xa806), (0xa80b, 0xa80b), (0xa825, 0xa826), (0xa82c, 0xa82c), (0xa8c4, 0xa8c5),
   (0xa8e0, 0xa8f1), (0xa8ff, 0xa8ff), (0xa926, 0xa92d), (0xa947, 0xa951), (0xa980, 0xa982),
   (0xa9b3, 0xa9b3), (0xa9b6, 0xa9b9), (0xa9bc, 0xa9bd), (0xa9e5, 0xa9e5), (0xaa29, 0xaa2e),
   (0xaa31, 0xaa32), (0xaa35, 0xaa36), (0xaa43, 0xaa43), (0xaa4c, 0xaa4c), (0xaa7c, 0xaa7c),
   (0xaab0, 0xaab0), (0xaab2, 0xaab4), (0xaab7, 0xaab8), (0xaabe, 0xaabf), (0xaac1, 0xaac1),
   (0xaaec, 0xaaed), (0xaaf6, 0xaaf6), (0xabe5, 0xabe5), (0xabe8, 0xabe8), (0xabed, 0xabed),
   (0xfb1e, 0xfb1e), (0xfe00, 0xfe0f), (0xfe20, 0xfe2f), (0xff9e, 0xff9f), (0x101fd, 0x101fd),
   (0x102e0, 0x102e0), (0x10376, 0x1037a), (0x10a01, 0x10a03), (0x10a05, 0x10a06),
   (0x10a0c, 0x10a0f), (0x10a38, 0x10a3a), (0x10a3f, 0x10a3f), (0x10ae5, 0x10ae6),
   (0x10d24, 0x10d27), (0x10eab, 0x10eac), (0x10efd, 0x10eff), (0x10f46, 0x10f50),
   (0x10f82, 0x10f85), (0x11001, 0x11001), (0x11038, 0x11046), (0x11070, 0x11070),
   (0x11073, 0x11074), (0x1107f, 0x11081), (0x110b3, 0x110b6), (0x110b9, 0x110ba),
   (0x110c2, 0x110c2), (0x11100, 0x11102), (0x11127, 0x1112b), (0x1112d, 0x11134),
   (0x11173, 0x11173), (0x11180, 0x11181), (0x111b6, 0x111be), (0x111c9, 0x111cc),
   (0x111cf, 0x111cf), (0x1122f, 0x11231), (0x11234, 0x11234), (0x11236, 0x11237),
   (0x1123e, 0x1123e), (0x11241, 0x11241), (0x112df, 0x112df), (0x112e3, 0x112ea),
   (0x11300, 0x11301), (0x1133b, 0x1133c), (0x1133e, 0x1133e), (0x11340, 0x11340),
   (0x11357, 0x11357), (0x11366, 0x1136c), (0x11370, 0x11374), (0x11438, 0x1143f),
   (0x11442, 0x11444), (0x11446, 0x11446), (0x1145e, 0x1145e), (0x114b0, 0x114b0),
   (0x114b3, 0x114b8), (0x114ba, 0x114ba), (0x114bd, 0x114bd), (0x114bf, 0x114c0),
   (0x114c2, 0x114c3), (0x115af, 0x115af), (0x115b2, 0x115b5), (0x115bc, 0x115bd),
   (0x115bf, 0x115c0), (0x115dc, 0x115dd), (0x11633, 0x1163a), (0x1163d, 0x1163d),
   (0x1163f, 0x11640), (0x116ab, 0x116ab), (0x116ad, 0x116ad), (0x116b0, 0x116b5),
   (0x116b7, 0x116b7), (0x1171d, 0x1171f), (0x11722, 0x11725), (0x11727, 0x1172b),
   (0x1182f, 0x11837), (0x11839, 0x1183a), (0x11930, 0x11930), (0x1193b, 0x1193c),
   (0x1193e, 0x1193e), (0x11943, 0x11943), (0x119d4, 0x119d7), (0x119da, 0x119db),
   (0x119e0, 0x119e0), (0x11a01, 0x11a0a), (0x11a33, 0x11a38), (0x11a3b, 0x11a3e),
   (0x11a47, 0x11a47), (0x11a51, 0x11a56), (0x11a59, 0x11a5b), (0x11a8a, 0x11a96),
   (0x11a98, 0x11a99), (0x11c30, 0x11c36), (0x11c38, 0x11c3d), (0x11c3f, 0x11c3f),
   (0x11c92, 0x11ca7), (0x11caa, 0x11cb0), (0x11cb2, 0x11cb3), (0x11cb5, 0x11cb6),
   (0x11d31, 0x11d36), (0x11d3a, 0x11d3a), (0x11d3c, 0x11d3d), (0x11d3f, 0x11d45),
   (0x11d47, 0x11d47), (0x11d90, 0x11d91), (0x11d95, 0x11d95), (0x11d97, 0x11d97),
   (0x11ef3, 0x11ef4), (0x11f00, 0x11f01), (0x11f36, 0x11f3a), (0x11f40, 0x11f40),
   (0x11f42, 0x11f42), (0x13440, 0x13440), (0x13447, 0x13455), (0x16af0, 0x16af4),
   (0x16b30, 0x16b36), (0x16f4f, 0x16f4f), (0x16f8f, 0x16f92), (0x16fe4, 0x16fe4),
   (0x1bc9d, 0x1bc9e), (0x1cf00, 0x1cf2d), (0x1cf30, 0x1cf46), (0x1d165, 0x1d165),
   (0x1d167, 0x1d169), (0x1d16e, 0x1d172), (0x1d17b, 0x1d182), (0x1d185, 0x1d18b),
   (0x1d1aa, 0x1d1ad), (0x1d242, 0x1d244), (0x1da00, 0x1da36), (0x1da3b, 0x1da6c),
   (0x1da75, 0x1da75), (0x1da84, 0x1da84), (0x1da9b, 0x1da9f), (0x1daa1, 0x1daaf),
   (0x1e000, 0x1e006), (0x1e008, 0x1e018), (0x1e01b, 0x1e021), (0x1e023, 0x1e024),
   (0x1e026, 0x1e02a), (0x1e08f, 0x1e08f), (0x1e130, 0x1e136), (0x1e2ae, 0x1e2ae),
   (0x1e2ec, 0x1e2ef), (0x1e4ec, 0x1e4ef), (0x1e8d0, 0x1e8d6), (0x1e944, 0x1e94a),
   (0x1f3fb, 0x1f3ff), (0xe0020, 0xe007f), (0xe0100, 0xe01ef)]

/-- Whether a code point lies in one of the ranges. -/
def isWithin (ranges : List (Nat × Nat)) (code : Nat) : Bool :=
  ranges.any fun range => range.1 ≤ code && code ≤ range.2

/-- The class of a precomposed Hangul syllable: each one without a consonant at its
end is followed by twenty-seven with one. -/
def ofSyllable (code : Nat) : ClusterClass :=
  if (code - 0xac00) % 28 = 0 then openSyllable else closedSyllable

/-- The class of a code point beyond ASCII. -/
def ofCode (code : Nat) : ClusterClass :=
  if 0xac00 ≤ code ∧ code ≤ 0xd7a3 then ofSyllable code
  else if isWithin [(0x1100, 0x115f), (0xa960, 0xa97c)] code then leading
  else if isWithin [(0x1160, 0x11a7), (0xd7b0, 0xd7c6)] code then vowel
  else if isWithin [(0x11a8, 0x11ff), (0xd7cb, 0xd7fb)] code then trailing
  else if isWithin [(0x1f1e6, 0x1f1ff)] code then indicator
  else if code = 0x200c then nonJoiner
  else if code = 0x200d then joiner
  else if [0x094d, 0x09cd, 0x0acd, 0x0b4d, 0x0c4d, 0x0d4d].contains code then linker
  else if isWithin consonants code then consonant
  else if isWithin extenders code then extend
  else if isWithin spacings code then spacing
  else if isWithin pictographs code then pictograph
  else if isWithin controls code then control
  else if isWithin prepends code then prepend
  else other

/-- The class of a character. -/
def ofChar (char : Char) : ClusterClass :=
  if char = '\r' then carriageReturn
  else if char = '\n' then lineFeed
  else if char.toNat < 0x20 ∨ char.toNat = 0x7f then control
  else if char.toNat < 0x80 then other
  else ofCode char.toNat

end ClusterClass

end QueryGate.Text
