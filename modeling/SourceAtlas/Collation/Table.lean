/-!
# Tables for collation

The part of the default collation table that names of files draw on, version 9 of the algorithm:
collation elements, canonical decompositions and combining classes of Latin letters, punctuation and
digits, and of the other characters in use.  Characters without a line get implicit weights.
-/

namespace SourceAtlas.Collation

/-- A collation element: the weights of three levels, zero for a level on which the element is
ignored. -/
structure Element where
  primary : Nat
  secondary : Nat
  tertiary : Nat
deriving DecidableEq, Repr

/-- Code points that are ignored on every level. -/
def ignoredRanges : List (Nat × Nat) :=
  [
    (0x0, 0x8), (0xE, 0x1F), (0x7F, 0x84), (0x86, 0x9F), (0xAD, 0xAD), (0x200B, 0x200B),
    (0x200D, 0x200D)
  ]

/-- The elements of single code points. -/
def singles : List (Nat × List Element) :=
  [
    (0x9, [⟨0x201, 0x20, 0x2⟩]), (0xA, [⟨0x202, 0x20, 0x2⟩]), (0xB, [⟨0x203, 0x20, 0x2⟩]),
    (0xC, [⟨0x204, 0x20, 0x2⟩]), (0xD, [⟨0x205, 0x20, 0x2⟩]), (0x20, [⟨0x209, 0x20, 0x2⟩]),
    (0x21, [⟨0x260, 0x20, 0x2⟩]), (0x22, [⟨0x30C, 0x20, 0x2⟩]), (0x23, [⟨0x398, 0x20, 0x2⟩]),
    (0x24, [⟨0x1C12, 0x20, 0x2⟩]), (0x25, [⟨0x399, 0x20, 0x2⟩]), (0x26, [⟨0x396, 0x20, 0x2⟩]),
    (0x27, [⟨0x305, 0x20, 0x2⟩]), (0x28, [⟨0x317, 0x20, 0x2⟩]), (0x29, [⟨0x318, 0x20, 0x2⟩]),
    (0x2A, [⟨0x38F, 0x20, 0x2⟩]), (0x2B, [⟨0x616, 0x20, 0x2⟩]), (0x2C, [⟨0x222, 0x20, 0x2⟩]),
    (0x2D, [⟨0x20D, 0x20, 0x2⟩]), (0x2E, [⟨0x277, 0x20, 0x2⟩]), (0x2F, [⟨0x394, 0x20, 0x2⟩]),
    (0x30, [⟨0x1C3D, 0x20, 0x2⟩]), (0x31, [⟨0x1C3E, 0x20, 0x2⟩]), (0x32, [⟨0x1C3F, 0x20, 0x2⟩]),
    (0x33, [⟨0x1C40, 0x20, 0x2⟩]), (0x34, [⟨0x1C41, 0x20, 0x2⟩]), (0x35, [⟨0x1C42, 0x20, 0x2⟩]),
    (0x36, [⟨0x1C43, 0x20, 0x2⟩]), (0x37, [⟨0x1C44, 0x20, 0x2⟩]), (0x38, [⟨0x1C45, 0x20, 0x2⟩]),
    (0x39, [⟨0x1C46, 0x20, 0x2⟩]), (0x3A, [⟨0x239, 0x20, 0x2⟩]), (0x3B, [⟨0x234, 0x20, 0x2⟩]),
    (0x3C, [⟨0x61A, 0x20, 0x2⟩]), (0x3D, [⟨0x61B, 0x20, 0x2⟩]), (0x3E, [⟨0x61C, 0x20, 0x2⟩]),
    (0x3F, [⟨0x266, 0x20, 0x2⟩]), (0x40, [⟨0x38E, 0x20, 0x2⟩]), (0x41, [⟨0x1C47, 0x20, 0x8⟩]),
    (0x42, [⟨0x1C60, 0x20, 0x8⟩]), (0x43, [⟨0x1C7A, 0x20, 0x8⟩]), (0x44, [⟨0x1C8F, 0x20, 0x8⟩]),
    (0x45, [⟨0x1CAA, 0x20, 0x8⟩]), (0x46, [⟨0x1CE5, 0x20, 0x8⟩]), (0x47, [⟨0x1CF4, 0x20, 0x8⟩]),
    (0x48, [⟨0x1D18, 0x20, 0x8⟩]), (0x49, [⟨0x1D32, 0x20, 0x8⟩]), (0x4A, [⟨0x1D4C, 0x20, 0x8⟩]),
    (0x4B, [⟨0x1D65, 0x20, 0x8⟩]), (0x4C, [⟨0x1D77, 0x20, 0x8⟩]), (0x4D, [⟨0x1DAA, 0x20, 0x8⟩]),
    (0x4E, [⟨0x1DB9, 0x20, 0x8⟩]), (0x4F, [⟨0x1DDD, 0x20, 0x8⟩]), (0x50, [⟨0x1E0C, 0x20, 0x8⟩]),
    (0x51, [⟨0x1E21, 0x20, 0x8⟩]), (0x52, [⟨0x1E33, 0x20, 0x8⟩]), (0x53, [⟨0x1E71, 0x20, 0x8⟩]),
    (0x54, [⟨0x1E95, 0x20, 0x8⟩]), (0x55, [⟨0x1EB5, 0x20, 0x8⟩]), (0x56, [⟨0x1EE3, 0x20, 0x8⟩]),
    (0x57, [⟨0x1EF5, 0x20, 0x8⟩]), (0x58, [⟨0x1EFF, 0x20, 0x8⟩]), (0x59, [⟨0x1F0B, 0x20, 0x8⟩]),
    (0x5A, [⟨0x1F21, 0x20, 0x8⟩]), (0x5B, [⟨0x319, 0x20, 0x2⟩]), (0x5C, [⟨0x395, 0x20, 0x2⟩]),
    (0x5D, [⟨0x31A, 0x20, 0x2⟩]), (0x5E, [⟨0x485, 0x20, 0x2⟩]), (0x5F, [⟨0x20B, 0x20, 0x2⟩]),
    (0x60, [⟨0x482, 0x20, 0x2⟩]), (0x61, [⟨0x1C47, 0x20, 0x2⟩]), (0x62, [⟨0x1C60, 0x20, 0x2⟩]),
    (0x63, [⟨0x1C7A, 0x20, 0x2⟩]), (0x64, [⟨0x1C8F, 0x20, 0x2⟩]), (0x65, [⟨0x1CAA, 0x20, 0x2⟩]),
    (0x66, [⟨0x1CE5, 0x20, 0x2⟩]), (0x67, [⟨0x1CF4, 0x20, 0x2⟩]), (0x68, [⟨0x1D18, 0x20, 0x2⟩]),
    (0x69, [⟨0x1D32, 0x20, 0x2⟩]), (0x6A, [⟨0x1D4C, 0x20, 0x2⟩]), (0x6B, [⟨0x1D65, 0x20, 0x2⟩]),
    (0x6C, [⟨0x1D77, 0x20, 0x2⟩]), (0x6D, [⟨0x1DAA, 0x20, 0x2⟩]), (0x6E, [⟨0x1DB9, 0x20, 0x2⟩]),
    (0x6F, [⟨0x1DDD, 0x20, 0x2⟩]), (0x70, [⟨0x1E0C, 0x20, 0x2⟩]), (0x71, [⟨0x1E21, 0x20, 0x2⟩]),
    (0x72, [⟨0x1E33, 0x20, 0x2⟩]), (0x73, [⟨0x1E71, 0x20, 0x2⟩]), (0x74, [⟨0x1E95, 0x20, 0x2⟩]),
    (0x75, [⟨0x1EB5, 0x20, 0x2⟩]), (0x76, [⟨0x1EE3, 0x20, 0x2⟩]), (0x77, [⟨0x1EF5, 0x20, 0x2⟩]),
    (0x78, [⟨0x1EFF, 0x20, 0x2⟩]), (0x79, [⟨0x1F0B, 0x20, 0x2⟩]), (0x7A, [⟨0x1F21, 0x20, 0x2⟩]),
    (0x7B, [⟨0x31B, 0x20, 0x2⟩]), (0x7C, [⟨0x61E, 0x20, 0x2⟩]), (0x7D, [⟨0x31C, 0x20, 0x2⟩]),
    (0x7E, [⟨0x620, 0x20, 0x2⟩]), (0x85, [⟨0x206, 0x20, 0x2⟩]), (0xA0, [⟨0x209, 0x20, 0x1B⟩]),
    (0xA1, [⟨0x261, 0x20, 0x2⟩]), (0xA2, [⟨0x1C11, 0x20, 0x2⟩]), (0xA3, [⟨0x1C13, 0x20, 0x2⟩]),
    (0xA4, [⟨0x1C10, 0x20, 0x2⟩]), (0xA5, [⟨0x1C14, 0x20, 0x2⟩]), (0xA6, [⟨0x61F, 0x20, 0x2⟩]),
    (0xA7, [⟨0x389, 0x20, 0x2⟩]), (0xA8, [⟨0x489, 0x20, 0x2⟩]), (0xA9, [⟨0x584, 0x20, 0x2⟩]),
    (0xAA, [⟨0x1C47, 0x20, 0x14⟩]), (0xAB, [⟨0x315, 0x20, 0x2⟩]), (0xAC, [⟨0x61D, 0x20, 0x2⟩]),
    (0xAE, [⟨0x585, 0x20, 0x2⟩]), (0xAF, [⟨0x486, 0x20, 0x2⟩]), (0xB0, [⟨0x4F6, 0x20, 0x2⟩]),
    (0xB1, [⟨0x617, 0x20, 0x2⟩]), (0xB2, [⟨0x1C3F, 0x20, 0x14⟩]), (0xB3, [⟨0x1C40, 0x20, 0x14⟩]),
    (0xB4, [⟨0x483, 0x20, 0x2⟩]), (0xB5, [⟨0x1FCB, 0x20, 0x4⟩]), (0xB6, [⟨0x38B, 0x20, 0x2⟩]),
    (0xB7, [⟨0x28B, 0x20, 0x2⟩]), (0xB8, [⟨0x48C, 0x20, 0x2⟩]), (0xB9, [⟨0x1C3E, 0x20, 0x14⟩]),
    (0xBA, [⟨0x1DDD, 0x20, 0x14⟩]), (0xBB, [⟨0x316, 0x20, 0x2⟩]),
    (0xBC, [⟨0x1C3E, 0x20, 0x1E⟩, ⟨0x626, 0x20, 0x1E⟩, ⟨0x1C41, 0x20, 0x1E⟩]),
    (0xBD, [⟨0x1C3E, 0x20, 0x1E⟩, ⟨0x626, 0x20, 0x1E⟩, ⟨0x1C3F, 0x20, 0x1E⟩]),
    (0xBE, [⟨0x1C40, 0x20, 0x1E⟩, ⟨0x626, 0x20, 0x1E⟩, ⟨0x1C41, 0x20, 0x1E⟩]),
    (0xBF, [⟨0x267, 0x20, 0x2⟩]),
    (0xC6, [⟨0x1C47, 0x20, 0xA⟩, ⟨0x0, 0x110, 0x4⟩, ⟨0x1CAA, 0x20, 0xA⟩]),
    (0xD0, [⟨0x1C8F, 0x20, 0xA⟩, ⟨0x0, 0x110, 0x4⟩]), (0xD7, [⟨0x619, 0x20, 0x2⟩]),
    (0xD8, [⟨0x1DDD, 0x20, 0x8⟩, ⟨0x0, 0x2F, 0x2⟩]), (0xDE, [⟨0x1F50, 0x20, 0x8⟩]),
    (0xDF, [⟨0x1E71, 0x20, 0x4⟩, ⟨0x0, 0x110, 0x4⟩, ⟨0x1E71, 0x20, 0x4⟩]),
    (0xE6, [⟨0x1C47, 0x20, 0x4⟩, ⟨0x0, 0x110, 0x4⟩, ⟨0x1CAA, 0x20, 0x4⟩]),
    (0xF0, [⟨0x1C8F, 0x20, 0x4⟩, ⟨0x0, 0x110, 0x4⟩]), (0xF7, [⟨0x618, 0x20, 0x2⟩]),
    (0xF8, [⟨0x1DDD, 0x20, 0x2⟩, ⟨0x0, 0x2F, 0x2⟩]), (0xFE, [⟨0x1F50, 0x20, 0x2⟩]),
    (0x110, [⟨0x1C8F, 0x20, 0x8⟩, ⟨0x0, 0x39, 0x2⟩]),
    (0x111, [⟨0x1C8F, 0x20, 0x2⟩, ⟨0x0, 0x39, 0x2⟩]),
    (0x126, [⟨0x1D18, 0x20, 0x8⟩, ⟨0x0, 0x39, 0x2⟩]),
    (0x127, [⟨0x1D18, 0x20, 0x2⟩, ⟨0x0, 0x39, 0x2⟩]), (0x131, [⟨0x1D36, 0x20, 0x2⟩]),
    (0x132, [⟨0x1D32, 0x20, 0xA⟩, ⟨0x1D4C, 0x20, 0xA⟩]),
    (0x133, [⟨0x1D32, 0x20, 0x4⟩, ⟨0x1D4C, 0x20, 0x4⟩]), (0x138, [⟨0x1E2F, 0x20, 0x2⟩]),
    (0x13F, [⟨0x1D77, 0x20, 0x8⟩, ⟨0x0, 0x110, 0x2⟩]),
    (0x140, [⟨0x1D77, 0x20, 0x2⟩, ⟨0x0, 0x110, 0x2⟩]),
    (0x141, [⟨0x1D77, 0x20, 0x8⟩, ⟨0x0, 0x39, 0x2⟩]),
    (0x142, [⟨0x1D77, 0x20, 0x2⟩, ⟨0x0, 0x39, 0x2⟩]),
    (0x149, [⟨0x1F7E, 0x20, 0x4⟩, ⟨0x1DB9, 0x20, 0x4⟩]), (0x14A, [⟨0x1DD8, 0x20, 0x8⟩]),
    (0x14B, [⟨0x1DD8, 0x20, 0x2⟩]),
    (0x152, [⟨0x1DDD, 0x20, 0xA⟩, ⟨0x0, 0x110, 0x4⟩, ⟨0x1CAA, 0x20, 0xA⟩]),
    (0x153, [⟨0x1DDD, 0x20, 0x4⟩, ⟨0x0, 0x110, 0x4⟩, ⟨0x1CAA, 0x20, 0x4⟩]),
    (0x166, [⟨0x1E9A, 0x20, 0x8⟩]), (0x167, [⟨0x1E9A, 0x20, 0x2⟩]),
    (0x17F, [⟨0x1E71, 0x20, 0x4⟩, ⟨0x0, 0x111, 0x4⟩]),
    (0x1C5, [⟨0x1C8F, 0x20, 0xA⟩, ⟨0x1F21, 0x20, 0x4⟩, ⟨0x0, 0x28, 0x4⟩]),
    (0x1C6, [⟨0x1C8F, 0x20, 0x4⟩, ⟨0x1F21, 0x20, 0x4⟩, ⟨0x0, 0x28, 0x4⟩]),
    (0x2BC, [⟨0x1F7E, 0x20, 0x2⟩]), (0x300, [⟨0x0, 0x25, 0x2⟩]), (0x301, [⟨0x0, 0x24, 0x2⟩]),
    (0x302, [⟨0x0, 0x27, 0x2⟩]), (0x303, [⟨0x0, 0x2D, 0x2⟩]), (0x304, [⟨0x0, 0x32, 0x2⟩]),
    (0x306, [⟨0x0, 0x26, 0x2⟩]), (0x307, [⟨0x0, 0x2E, 0x2⟩]), (0x308, [⟨0x0, 0x2B, 0x2⟩]),
    (0x30A, [⟨0x0, 0x29, 0x2⟩]), (0x30B, [⟨0x0, 0x2C, 0x2⟩]), (0x30C, [⟨0x0, 0x28, 0x2⟩]),
    (0x31B, [⟨0x0, 0x3F, 0x2⟩]), (0x323, [⟨0x0, 0x42, 0x2⟩]), (0x327, [⟨0x0, 0x30, 0x2⟩]),
    (0x328, [⟨0x0, 0x31, 0x2⟩]), (0x338, [⟨0x0, 0x2F, 0x2⟩]), (0x345, [⟨0x0, 0x4C, 0x2⟩]),
    (0x391, [⟨0x1FB9, 0x20, 0x8⟩]), (0x3A3, [⟨0x1FD7, 0x20, 0x8⟩]), (0x3B1, [⟨0x1FB9, 0x20, 0x2⟩]),
    (0x3B2, [⟨0x1FBA, 0x20, 0x2⟩]), (0x3BC, [⟨0x1FCB, 0x20, 0x2⟩]), (0x3C2, [⟨0x1FD7, 0x20, 0x19⟩]),
    (0x3C3, [⟨0x1FD7, 0x20, 0x2⟩]), (0x3C9, [⟨0x1FE1, 0x20, 0x2⟩]), (0x410, [⟨0x2022, 0x20, 0x8⟩]),
    (0x415, [⟨0x205A, 0x20, 0x8⟩]), (0x418, [⟨0x2080, 0x20, 0x8⟩]), (0x42F, [⟨0x21AF, 0x20, 0x8⟩]),
    (0x430, [⟨0x2022, 0x20, 0x2⟩]), (0x431, [⟨0x202E, 0x20, 0x2⟩]), (0x435, [⟨0x205A, 0x20, 0x2⟩]),
    (0x436, [⟨0x2062, 0x20, 0x2⟩]), (0x438, [⟨0x2080, 0x20, 0x2⟩]), (0x43A, [⟨0x2096, 0x20, 0x2⟩]),
    (0x443, [⟨0x211D, 0x20, 0x2⟩]), (0x444, [⟨0x212E, 0x20, 0x2⟩]), (0x44F, [⟨0x21AF, 0x20, 0x2⟩]),
    (0x915, [⟨0x2676, 0x20, 0x2⟩]), (0x916, [⟨0x2677, 0x20, 0x2⟩]), (0x93C, [⟨0x0, 0xC2, 0x2⟩]),
    (0xE01, [⟨0x2D73, 0x20, 0x2⟩]), (0xE02, [⟨0x2D74, 0x20, 0x2⟩]), (0xE30, [⟨0x2DA2, 0x20, 0x2⟩]),
    (0xE32, [⟨0x2DA4, 0x20, 0x2⟩]), (0xE40, [⟨0x2DAD, 0x20, 0x2⟩]), (0xE41, [⟨0x2DAE, 0x20, 0x2⟩]),
    (0x1100, [⟨0x3BF5, 0x20, 0x2⟩]), (0x1102, [⟨0x3BF7, 0x20, 0x2⟩]),
    (0x1112, [⟨0x3C07, 0x20, 0x2⟩]), (0x1161, [⟨0x3C73, 0x20, 0x2⟩]),
    (0x1173, [⟨0x3C85, 0x20, 0x2⟩]), (0x1175, [⟨0x3C87, 0x20, 0x2⟩]),
    (0x11A8, [⟨0x3CD1, 0x20, 0x2⟩]), (0x11AB, [⟨0x3CD4, 0x20, 0x2⟩]),
    (0x11AF, [⟨0x3CD8, 0x20, 0x2⟩]), (0x11C2, [⟨0x3CEB, 0x20, 0x2⟩]),
    (0x1E9E, [⟨0x1E71, 0x20, 0xA⟩, ⟨0x0, 0x110, 0x4⟩, ⟨0x1E71, 0x20, 0xA⟩]),
    (0x2010, [⟨0x213, 0x20, 0x2⟩]), (0x2013, [⟨0x215, 0x20, 0x2⟩]), (0x2014, [⟨0x216, 0x20, 0x2⟩]),
    (0x2018, [⟨0x306, 0x20, 0x2⟩]), (0x2019, [⟨0x307, 0x20, 0x2⟩]), (0x201C, [⟨0x30D, 0x20, 0x2⟩]),
    (0x201D, [⟨0x30E, 0x20, 0x2⟩]), (0x2022, [⟨0x3A4, 0x20, 0x2⟩]),
    (0x2026, [⟨0x277, 0x20, 0x4⟩, ⟨0x277, 0x20, 0x4⟩, ⟨0x277, 0x20, 0x4⟩]),
    (0x2028, [⟨0x207, 0x20, 0x2⟩]), (0x2044, [⟨0x626, 0x20, 0x2⟩]), (0x20AC, [⟨0x1C2A, 0x20, 0x2⟩]),
    (0x2122, [⟨0x1E95, 0x20, 0x14⟩, ⟨0x1DAA, 0x20, 0x14⟩]), (0x2192, [⟨0x59D, 0x20, 0x2⟩]),
    (0x2460, [⟨0x1C3E, 0x20, 0x6⟩]), (0x3042, [⟨0x3D5A, 0x20, 0xE⟩]),
    (0x3044, [⟨0x3D5B, 0x20, 0xE⟩]), (0x304B, [⟨0x3D60, 0x20, 0xE⟩]), (0x3099, [⟨0x0, 0x37, 0x2⟩]),
    (0x30A2, [⟨0x3D5A, 0x20, 0x11⟩]), (0x30A4, [⟨0x3D5B, 0x20, 0x11⟩]),
    (0x30AB, [⟨0x3D60, 0x20, 0x11⟩]), (0x30AD, [⟨0x3D61, 0x20, 0x11⟩]),
    (0x30FC, [⟨0x1C0E, 0x20, 0x2⟩]), (0xFB01, [⟨0x1CE5, 0x20, 0x4⟩, ⟨0x1D32, 0x20, 0x4⟩]),
    (0xFB02, [⟨0x1CE5, 0x20, 0x4⟩, ⟨0x1D77, 0x20, 0x4⟩]), (0xFF11, [⟨0x1C3E, 0x20, 0x3⟩]),
    (0xFF21, [⟨0x1C47, 0x20, 0x9⟩]), (0xFF41, [⟨0x1C47, 0x20, 0x3⟩]),
    (0xFF71, [⟨0x3D5A, 0x20, 0x12⟩]), (0x1F600, [⟨0x15FB, 0x20, 0x2⟩]),
    (0x1F601, [⟨0x15FC, 0x20, 0x2⟩]), (0x1F680, [⟨0x167B, 0x20, 0x2⟩])
  ]

/-- The elements of pairs of code points that are sorted as one. -/
def pairs : List ((Nat × Nat) × List Element) :=
  [
    ((0x4C, 0xB7), [⟨0x1D77, 0x20, 0x8⟩, ⟨0x0, 0x110, 0x2⟩]),
    ((0x6C, 0xB7), [⟨0x1D77, 0x20, 0x2⟩, ⟨0x0, 0x110, 0x2⟩]),
    ((0x418, 0x306), [⟨0x208D, 0x20, 0x8⟩]), ((0x438, 0x306), [⟨0x208D, 0x20, 0x2⟩]),
    ((0xE40, 0xE01), [⟨0x2D73, 0x20, 0x2⟩, ⟨0x2DAD, 0x20, 0x2⟩]),
    ((0xE40, 0xE02), [⟨0x2D74, 0x20, 0x2⟩, ⟨0x2DAD, 0x20, 0x2⟩]),
    ((0xE41, 0xE01), [⟨0x2D73, 0x20, 0x2⟩, ⟨0x2DAE, 0x20, 0x2⟩]),
    ((0xE41, 0xE02), [⟨0x2D74, 0x20, 0x2⟩, ⟨0x2DAE, 0x20, 0x2⟩])
  ]

/-- Canonical decompositions in full. -/
def decompositions : List (Nat × List Nat) :=
  [
    (0xC0, [0x41, 0x300]), (0xC1, [0x41, 0x301]), (0xC2, [0x41, 0x302]), (0xC3, [0x41, 0x303]),
    (0xC4, [0x41, 0x308]), (0xC5, [0x41, 0x30A]), (0xC7, [0x43, 0x327]), (0xC8, [0x45, 0x300]),
    (0xC9, [0x45, 0x301]), (0xCA, [0x45, 0x302]), (0xCB, [0x45, 0x308]), (0xCC, [0x49, 0x300]),
    (0xCD, [0x49, 0x301]), (0xCE, [0x49, 0x302]), (0xCF, [0x49, 0x308]), (0xD1, [0x4E, 0x303]),
    (0xD2, [0x4F, 0x300]), (0xD3, [0x4F, 0x301]), (0xD4, [0x4F, 0x302]), (0xD5, [0x4F, 0x303]),
    (0xD6, [0x4F, 0x308]), (0xD9, [0x55, 0x300]), (0xDA, [0x55, 0x301]), (0xDB, [0x55, 0x302]),
    (0xDC, [0x55, 0x308]), (0xDD, [0x59, 0x301]), (0xE0, [0x61, 0x300]), (0xE1, [0x61, 0x301]),
    (0xE2, [0x61, 0x302]), (0xE3, [0x61, 0x303]), (0xE4, [0x61, 0x308]), (0xE5, [0x61, 0x30A]),
    (0xE7, [0x63, 0x327]), (0xE8, [0x65, 0x300]), (0xE9, [0x65, 0x301]), (0xEA, [0x65, 0x302]),
    (0xEB, [0x65, 0x308]), (0xEC, [0x69, 0x300]), (0xED, [0x69, 0x301]), (0xEE, [0x69, 0x302]),
    (0xEF, [0x69, 0x308]), (0xF1, [0x6E, 0x303]), (0xF2, [0x6F, 0x300]), (0xF3, [0x6F, 0x301]),
    (0xF4, [0x6F, 0x302]), (0xF5, [0x6F, 0x303]), (0xF6, [0x6F, 0x308]), (0xF9, [0x75, 0x300]),
    (0xFA, [0x75, 0x301]), (0xFB, [0x75, 0x302]), (0xFC, [0x75, 0x308]), (0xFD, [0x79, 0x301]),
    (0xFF, [0x79, 0x308]), (0x100, [0x41, 0x304]), (0x101, [0x61, 0x304]), (0x102, [0x41, 0x306]),
    (0x103, [0x61, 0x306]), (0x104, [0x41, 0x328]), (0x105, [0x61, 0x328]), (0x106, [0x43, 0x301]),
    (0x107, [0x63, 0x301]), (0x108, [0x43, 0x302]), (0x109, [0x63, 0x302]), (0x10A, [0x43, 0x307]),
    (0x10B, [0x63, 0x307]), (0x10C, [0x43, 0x30C]), (0x10D, [0x63, 0x30C]), (0x10E, [0x44, 0x30C]),
    (0x10F, [0x64, 0x30C]), (0x112, [0x45, 0x304]), (0x113, [0x65, 0x304]), (0x114, [0x45, 0x306]),
    (0x115, [0x65, 0x306]), (0x116, [0x45, 0x307]), (0x117, [0x65, 0x307]), (0x118, [0x45, 0x328]),
    (0x119, [0x65, 0x328]), (0x11A, [0x45, 0x30C]), (0x11B, [0x65, 0x30C]), (0x11C, [0x47, 0x302]),
    (0x11D, [0x67, 0x302]), (0x11E, [0x47, 0x306]), (0x11F, [0x67, 0x306]), (0x120, [0x47, 0x307]),
    (0x121, [0x67, 0x307]), (0x122, [0x47, 0x327]), (0x123, [0x67, 0x327]), (0x124, [0x48, 0x302]),
    (0x125, [0x68, 0x302]), (0x128, [0x49, 0x303]), (0x129, [0x69, 0x303]), (0x12A, [0x49, 0x304]),
    (0x12B, [0x69, 0x304]), (0x12C, [0x49, 0x306]), (0x12D, [0x69, 0x306]), (0x12E, [0x49, 0x328]),
    (0x12F, [0x69, 0x328]), (0x130, [0x49, 0x307]), (0x134, [0x4A, 0x302]), (0x135, [0x6A, 0x302]),
    (0x136, [0x4B, 0x327]), (0x137, [0x6B, 0x327]), (0x139, [0x4C, 0x301]), (0x13A, [0x6C, 0x301]),
    (0x13B, [0x4C, 0x327]), (0x13C, [0x6C, 0x327]), (0x13D, [0x4C, 0x30C]), (0x13E, [0x6C, 0x30C]),
    (0x143, [0x4E, 0x301]), (0x144, [0x6E, 0x301]), (0x145, [0x4E, 0x327]), (0x146, [0x6E, 0x327]),
    (0x147, [0x4E, 0x30C]), (0x148, [0x6E, 0x30C]), (0x14C, [0x4F, 0x304]), (0x14D, [0x6F, 0x304]),
    (0x14E, [0x4F, 0x306]), (0x14F, [0x6F, 0x306]), (0x150, [0x4F, 0x30B]), (0x151, [0x6F, 0x30B]),
    (0x154, [0x52, 0x301]), (0x155, [0x72, 0x301]), (0x156, [0x52, 0x327]), (0x157, [0x72, 0x327]),
    (0x158, [0x52, 0x30C]), (0x159, [0x72, 0x30C]), (0x15A, [0x53, 0x301]), (0x15B, [0x73, 0x301]),
    (0x15C, [0x53, 0x302]), (0x15D, [0x73, 0x302]), (0x15E, [0x53, 0x327]), (0x15F, [0x73, 0x327]),
    (0x160, [0x53, 0x30C]), (0x161, [0x73, 0x30C]), (0x162, [0x54, 0x327]), (0x163, [0x74, 0x327]),
    (0x164, [0x54, 0x30C]), (0x165, [0x74, 0x30C]), (0x168, [0x55, 0x303]), (0x169, [0x75, 0x303]),
    (0x16A, [0x55, 0x304]), (0x16B, [0x75, 0x304]), (0x16C, [0x55, 0x306]), (0x16D, [0x75, 0x306]),
    (0x16E, [0x55, 0x30A]), (0x16F, [0x75, 0x30A]), (0x170, [0x55, 0x30B]), (0x171, [0x75, 0x30B]),
    (0x172, [0x55, 0x328]), (0x173, [0x75, 0x328]), (0x174, [0x57, 0x302]), (0x175, [0x77, 0x302]),
    (0x176, [0x59, 0x302]), (0x177, [0x79, 0x302]), (0x178, [0x59, 0x308]), (0x179, [0x5A, 0x301]),
    (0x17A, [0x7A, 0x301]), (0x17B, [0x5A, 0x307]), (0x17C, [0x7A, 0x307]), (0x17D, [0x5A, 0x30C]),
    (0x17E, [0x7A, 0x30C]), (0x1A1, [0x6F, 0x31B]), (0x3AC, [0x3B1, 0x301]),
    (0x419, [0x418, 0x306]), (0x439, [0x438, 0x306]), (0x451, [0x435, 0x308]),
    (0x45E, [0x443, 0x306]), (0x1EA1, [0x61, 0x323]), (0x1EE3, [0x6F, 0x31B, 0x323]),
    (0x304C, [0x304B, 0x3099]), (0x30AC, [0x30AB, 0x3099])
  ]

/-- Combining classes other than zero. -/
def combiningClasses : List (Nat × Nat) :=
  [
    (0x300, 230), (0x301, 230), (0x302, 230), (0x303, 230), (0x304, 230), (0x306, 230),
    (0x307, 230), (0x308, 230), (0x30A, 230), (0x30B, 230), (0x30C, 230), (0x31B, 216),
    (0x323, 220), (0x327, 202), (0x328, 202), (0x338, 1), (0x345, 240), (0x93C, 7), (0x3099, 8)
  ]

end SourceAtlas.Collation
