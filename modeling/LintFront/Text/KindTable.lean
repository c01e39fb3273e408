import LintFront.Text.Kind
/-!
# The kinds of the characters beyond ASCII

The code points from U+0080 on fall into runs of one kind each. The table holds the start of every
run; it follows version 14 of the Unicode character database. Surrogates are not characters and
belong to no run of their own.
-/

namespace LintFront.Text

/-- The runs from U+0080 on. -/
def runsFrom0080 : List (Nat × Kind) := [
  (0x80, .other), (0x85, .gap), (0x86, .other), (0xA0, .gap), (0xA1, .symbol), (0xAA, .letter),
  (0xAB, .symbol), (0xAD, .other), (0xAE, .symbol), (0xB2, .numeral), (0xB4, .symbol),
  (0xB5, .letter), (0xB6, .symbol), (0xB7, .mark), (0xB8, .symbol), (0xB9, .numeral),
  (0xBA, .letter), (0xBB, .symbol), (0xBC, .numeral), (0xBF, .symbol), (0xC0, .letter),
  (0xD7, .symbol), (0xD8, .letter), (0xF7, .symbol), (0xF8, .letter), (0x2C2, .symbol),
  (0x2C6, .letter), (0x2D2, .symbol), (0x2E0, .letter), (0x2E5, .symbol), (0x2EC, .letter),
  (0x2ED, .symbol), (0x2EE, .letter), (0x2EF, .symbol), (0x300, .mark), (0x370, .letter),
  (0x375, .symbol), (0x376, .letter), (0x378, .other), (0x37A, .numeral), (0x37B, .letter),
  (0x37E, .symbol), (0x37F, .letter), (0x380, .other), (0x384, .symbol), (0x386, .letter),
  (0x387, .mark), (0x388, .letter), (0x38B, .other), (0x38C, .letter), (0x38D, .other),
  (0x38E, .letter), (0x3A2, .other), (0x3A3, .letter), (0x3F6, .symbol), (0x3F7, .letter),
  (0x482, .symbol), (0x483, .mark), (0x488, .symbol), (0x48A, .letter), (0x530, .other),
  (0x531, .letter), (0x557, .other), (0x559, .letter), (0x55A, .symbol), (0x560, .letter),
  (0x589, .symbol), (0x58B, .other), (0x58D, .symbol), (0x590, .other), (0x591, .mark),
  (0x5BE, .symbol), (0x5BF, .mark), (0x5C0, .symbol), (0x5C1, .mark), (0x5C3, .symbol),
  (0x5C4, .mark), (0x5C6, .symbol), (0x5C7, .mark), (0x5C8, .other), (0x5D0, .letter),
  (0x5EB, .other), (0x5EF, .letter), (0x5F3, .symbol), (0x5F5, .other), (0x606, .symbol),
  (0x610, .mark), (0x61B, .symbol), (0x61C, .other), (0x61D, .symbol), (0x620, .letter),
  (0x64B, .mark), (0x660, .digit), (0x66A, .symbol), (0x66E, .letter), (0x670, .mark),
  (0x671, .letter), (0x6D4, .symbol), (0x6D5, .letter), (0x6D6, .mark), (0x6DD, .other),
  (0x6DE, .symbol), (0x6DF, .mark), (0x6E5, .letter), (0x6E7, .mark), (0x6E9, .symbol),
  (0x6EA, .mark), (0x6EE, .letter), (0x6F0, .digit), (0x6FA, .letter), (0x6FD, .symbol),
  (0x6FF, .letter), (0x700, .symbol), (0x70E, .other), (0x710, .letter), (0x711, .mark),
  (0x712, .letter), (0x730, .mark), (0x74B, .other), (0x74D, .letter), (0x7A6, .mark),
  (0x7B1, .letter), (0x7B2, .other), (0x7C0, .digit), (0x7CA, .letter), (0x7EB, .mark),
  (0x7F4, .letter), (0x7F6, .symbol), (0x7FA, .letter), (0x7FB, .other), (0x7FD, .mark),
  (0x7FE, .symbol), (0x800, .letter), (0x816, .mark), (0x81A, .letter), (0x81B, .mark),
  (0x824, .letter), (0x825, .mark), (0x828, .letter), (0x829, .mark), (0x82E, .other),
  (0x830, .symbol), (0x83F, .other), (0x840, .letter), (0x859, .mark), (0x85C, .other),
  (0x85E, .symbol), (0x85F, .other), (0x860, .letter), (0x86B, .other), (0x870, .letter),
  (0x888, .symbol), (0x889, .letter), (0x88F, .other), (0x898, .mark), (0x8A0, .letter),
  (0x8CA, .mark), (0x8E2, .other), (0x8E3, .mark), (0x904, .letter), (0x93A, .mark),
  (0x93D, .letter), (0x93E, .mark), (0x950, .letter), (0x951, .mark), (0x958, .letter),
  (0x962, .mark), (0x964, .symbol), (0x966, .digit), (0x970, .symbol), (0x971, .letter),
  (0x981, .mark), (0x984, .other), (0x985, .letter), (0x98D, .other), (0x98F, .letter),
  (0x991, .other), (0x993, .letter), (0x9A9, .other), (0x9AA, .letter), (0x9B1, .other),
  (0x9B2, .letter), (0x9B3, .other), (0x9B6, .letter), (0x9BA, .other), (0x9BC, .mark),
  (0x9BD, .letter), (0x9BE, .mark), (0x9C5, .other), (0x9C7, .mark), (0x9C9, .other),
  (0x9CB, .mark), (0x9CE, .letter), (0x9CF, .other), (0x9D7, .mark), (0x9D8, .other),
  (0x9DC, .letter), (0x9DE, .other), (0x9DF, .letter), (0x9E2, .mark), (0x9E4, .other),
  (0x9E6, .digit), (0x9F0, .letter), (0x9F2, .symbol), (0x9F4, .numeral), (0x9FA, .symbol),
  (0x9FC, .letter), (0x9FD, .symbol), (0x9FE, .mark), (0x9FF, .other), (0xA01, .mark),
  (0xA04, .other), (0xA05, .letter), (0xA0B, .other), (0xA0F, .letter), (0xA11, .other),
  (0xA13, .letter), (0xA29, .other), (0xA2A, .letter), (0xA31, .other), (0xA32, .letter),
  (0xA34, .other), (0xA35, .letter), (0xA37, .other), (0xA38, .letter), (0xA3A, .other),
  (0xA3C, .mark), (0xA3D, .other), (0xA3E, .mark), (0xA43, .other), (0xA47, .mark),
  (0xA49, .other), (0xA4B, .mark), (0xA4E, .other), (0xA51, .mark), (0xA52, .other),
  (0xA59, .letter), (0xA5D, .other), (0xA5E, .letter), (0xA5F, .other), (0xA66, .digit),
  (0xA70, .mark), (0xA72, .letter), (0xA75, .mark), (0xA76, .symbol), (0xA77, .other),
  (0xA81, .mark), (0xA84, .other), (0xA85, .letter), (0xA8E, .other), (0xA8F, .letter),
  (0xA92, .other), (0xA93, .letter), (0xAA9, .other), (0xAAA, .letter), (0xAB1, .other)]

/-- The runs from U+0AB2 on. -/
def runsFrom0AB2 : List (Nat × Kind) := [
  (0xAB2, .letter), (0xAB4, .other), (0xAB5, .letter), (0xABA, .other), (0xABC, .mark),
  (0xABD, .letter), (0xABE, .mark), (0xAC6, .other), (0xAC7, .mark), (0xACA, .other),
  (0xACB, .mark), (0xACE, .other), (0xAD0, .letter), (0xAD1, .other), (0xAE0, .letter),
  (0xAE2, .mark), (0xAE4, .other), (0xAE6, .digit), (0xAF0, .symbol), (0xAF2, .other),
  (0xAF9, .letter), (0xAFA, .mark), (0xB00, .other), (0xB01, .mark), (0xB04, .other),
  (0xB05, .letter), (0xB0D, .other), (0xB0F, .letter), (0xB11, .other), (0xB13, .letter),
  (0xB29, .other), (0xB2A, .letter), (0xB31, .other), (0xB32, .letter), (0xB34, .other),
  (0xB35, .letter), (0xB3A, .other), (0xB3C, .mark), (0xB3D, .letter), (0xB3E, .mark),
  (0xB45, .other), (0xB47, .mark), (0xB49, .other), (0xB4B, .mark), (0xB4E, .other),
  (0xB55, .mark), (0xB58, .other), (0xB5C, .letter), (0xB5E, .other), (0xB5F, .letter),
  (0xB62, .mark), (0xB64, .other), (0xB66, .digit), (0xB70, .symbol), (0xB71, .letter),
  (0xB72, .numeral), (0xB78, .other), (0xB82, .mark), (0xB83, .letter), (0xB84, .other),
  (0xB85, .letter), (0xB8B, .other), (0xB8E, .letter), (0xB91, .other), (0xB92, .letter),
  (0xB96, .other), (0xB99, .letter), (0xB9B, .other), (0xB9C, .letter), (0xB9D, .other),
  (0xB9E, .letter), (0xBA0, .other), (0xBA3, .letter), (0xBA5, .other), (0xBA8, .letter),
  (0xBAB, .other), (0xBAE, .letter), (0xBBA, .other), (0xBBE, .mark), (0xBC3, .other),
  (0xBC6, .mark), (0xBC9, .other), (0xBCA, .mark), (0xBCE, .other), (0xBD0, .letter),
  (0xBD1, .other), (0xBD7, .mark), (0xBD8, .other), (0xBE6, .digit), (0xBF0, .numeral),
  (0xBF3, .symbol), (0xBFB, .other), (0xC00, .mark), (0xC05, .letter), (0xC0D, .other),
  (0xC0E, .letter), (0xC11, .other), (0xC12, .letter), (0xC29, .other), (0xC2A, .letter),
  (0xC3A, .other), (0xC3C, .mark), (0xC3D, .letter), (0xC3E, .mark), (0xC45, .other),
  (0xC46, .mark), (0xC49, .other), (0xC4A, .mark), (0xC4E, .other), (0xC55, .mark),
  (0xC57, .other), (0xC58, .letter), (0xC5B, .other), (0xC5D, .letter), (0xC5E, .other),
  (0xC60, .letter), (0xC62, .mark), (0xC64, .other), (0xC66, .digit), (0xC70, .other),
  (0xC77, .symbol), (0xC78, .numeral), (0xC7F, .symbol), (0xC80, .letter), (0xC81, .mark),
  (0xC84, .symbol), (0xC85, .letter), (0xC8D, .other), (0xC8E, .letter), (0xC91, .other),
  (0xC92, .letter), (0xCA9, .other), (0xCAA, .letter), (0xCB4, .other), (0xCB5, .letter),
  (0xCBA, .other), (0xCBC, .mark), (0xCBD, .letter), (0xCBE, .mark), (0xCC5, .other),
  (0xCC6, .mark), (0xCC9, .other), (0xCCA, .mark), (0xCCE, .other), (0xCD5, .mark),
  (0xCD7, .other), (0xCDD, .letter), (0xCDF, .other), (0xCE0, .letter), (0xCE2, .mark),
  (0xCE4, .other), (0xCE6, .digit), (0xCF0, .other), (0xCF1, .letter), (0xCF3, .other),
  (0xD00, .mark), (0xD04, .letter), (0xD0D, .other), (0xD0E, .letter), (0xD11, .other),
  (0xD12, .letter), (0xD3B, .mark), (0xD3D, .letter), (0xD3E, .mark), (0xD45, .other),
  (0xD46, .mark), (0xD49, .other), (0xD4A, .mark), (0xD4E, .letter), (0xD4F, .symbol),
  (0xD50, .other), (0xD54, .letter), (0xD57, .mark), (0xD58, .numeral), (0xD5F, .letter),
  (0xD62, .mark), (0xD64, .other), (0xD66, .digit), (0xD70, .numeral), (0xD79, .symbol),
  (0xD7A, .letter), (0xD80, .other), (0xD81, .mark), (0xD84, .other), (0xD85, .letter),
  (0xD97, .other), (0xD9A, .letter), (0xDB2, .other), (0xDB3, .letter), (0xDBC, .other),
  (0xDBD, .letter), (0xDBE, .other), (0xDC0, .letter), (0xDC7, .other), (0xDCA, .mark),
  (0xDCB, .other), (0xDCF, .mark), (0xDD5, .other), (0xDD6, .mark), (0xDD7, .other),
  (0xDD8, .mark), (0xDE0, .other), (0xDE6, .digit), (0xDF0, .other), (0xDF2, .mark),
  (0xDF4, .symbol), (0xDF5, .other), (0xE01, .letter), (0xE31, .mark), (0xE32, .letter),
  (0xE33, .digit), (0xE34, .mark), (0xE3B, .other), (0xE3F, .symbol), (0xE40, .letter),
  (0xE47, .mark), (0xE4F, .symbol), (0xE50, .digit), (0xE5A, .symbol), (0xE5C, .other),
  (0xE81, .letter), (0xE83, .other), (0xE84, .letter), (0xE85, .other), (0xE86, .letter),
  (0xE8B, .other), (0xE8C, .letter), (0xEA4, .other), (0xEA5, .letter), (0xEA6, .other),
  (0xEA7, .letter), (0xEB1, .mark), (0xEB2, .letter), (0xEB3, .digit), (0xEB4, .mark),
  (0xEBD, .letter), (0xEBE, .other), (0xEC0, .letter), (0xEC5, .other), (0xEC6, .letter),
  (0xEC7, .other), (0xEC8, .mark), (0xECE, .other), (0xED0, .digit), (0xEDA, .other),
  (0xEDC, .letter), (0xEE0, .other), (0xF00, .letter), (0xF01, .symbol), (0xF18, .mark),
  (0xF1A, .symbol), (0xF20, .digit), (0xF2A, .numeral), (0xF34, .symbol), (0xF35, .mark),
  (0xF36, .symbol)]

/-- The runs from U+0F37 on. -/
def runsFrom0F37 : List (Nat × Kind) := [
  (0xF37, .mark), (0xF38, .symbol), (0xF39, .mark), (0xF3A, .symbol), (0xF3E, .mark),
  (0xF40, .letter), (0xF48, .other), (0xF49, .letter), (0xF6D, .other), (0xF71, .mark),
  (0xF85, .symbol), (0xF86, .mark), (0xF88, .letter), (0xF8D, .mark), (0xF98, .other),
  (0xF99, .mark), (0xFBD, .other), (0xFBE, .symbol), (0xFC6, .mark), (0xFC7, .symbol),
  (0xFCD, .other), (0xFCE, .symbol), (0xFDB, .other), (0x1000, .letter), (0x102B, .mark),
  (0x103F, .letter), (0x1040, .digit), (0x104A, .symbol), (0x1050, .letter), (0x1056, .mark),
  (0x105A, .letter), (0x105E, .mark), (0x1061, .letter), (0x1062, .mark), (0x1065, .letter),
  (0x1067, .mark), (0x106E, .letter), (0x1071, .mark), (0x1075, .letter), (0x1082, .mark),
  (0x108E, .letter), (0x108F, .mark), (0x1090, .digit), (0x109A, .mark), (0x109E, .symbol),
  (0x10A0, .letter), (0x10C6, .other), (0x10C7, .letter), (0x10C8, .other), (0x10CD, .letter),
  (0x10CE, .other), (0x10D0, .letter), (0x10FB, .symbol), (0x10FC, .letter), (0x1249, .other),
  (0x124A, .letter), (0x124E, .other), (0x1250, .letter), (0x1257, .other), (0x1258, .letter),
  (0x1259, .other), (0x125A, .letter), (0x125E, .other), (0x1260, .letter), (0x1289, .other),
  (0x128A, .letter), (0x128E, .other), (0x1290, .letter), (0x12B1, .other), (0x12B2, .letter),
  (0x12B6, .other), (0x12B8, .letter), (0x12BF, .other), (0x12C0, .letter), (0x12C1, .other),
  (0x12C2, .letter), (0x12C6, .other), (0x12C8, .letter), (0x12D7, .other), (0x12D8, .letter),
  (0x1311, .other), (0x1312, .letter), (0x1316, .other), (0x1318, .letter), (0x135B, .other),
  (0x135D, .mark), (0x1360, .symbol), (0x1369, .digit), (0x1372, .numeral), (0x137D, .other),
  (0x1380, .letter), (0x1390, .symbol), (0x139A, .other), (0x13A0, .letter), (0x13F6, .other),
  (0x13F8, .letter), (0x13FE, .other), (0x1400, .symbol), (0x1401, .letter), (0x166D, .symbol),
  (0x166F, .letter), (0x1680, .gap), (0x1681, .letter), (0x169B, .symbol), (0x169D, .other),
  (0x16A0, .letter), (0x16EB, .symbol), (0x16EE, .letter), (0x16F9, .other), (0x1700, .letter),
  (0x1712, .mark), (0x1716, .other), (0x171F, .letter), (0x1732, .mark), (0x1735, .symbol),
  (0x1737, .other), (0x1740, .letter), (0x1752, .mark), (0x1754, .other), (0x1760, .letter),
  (0x176D, .other), (0x176E, .letter), (0x1771, .other), (0x1772, .mark), (0x1774, .other),
  (0x1780, .letter), (0x17B4, .mark), (0x17D4, .symbol), (0x17D7, .letter), (0x17D8, .symbol),
  (0x17DC, .letter), (0x17DD, .mark), (0x17DE, .other), (0x17E0, .digit), (0x17EA, .other),
  (0x17F0, .numeral), (0x17FA, .other), (0x1800, .symbol), (0x180B, .mark), (0x180E, .other),
  (0x180F, .mark), (0x1810, .digit), (0x181A, .other), (0x1820, .letter), (0x1879, .other),
  (0x1880, .letter), (0x1885, .joiner), (0x1887, .letter), (0x18A9, .mark), (0x18AA, .letter),
  (0x18AB, .other), (0x18B0, .letter), (0x18F6, .other), (0x1900, .letter), (0x191F, .other),
  (0x1920, .mark), (0x192C, .other), (0x1930, .mark), (0x193C, .other), (0x1940, .symbol),
  (0x1941, .other), (0x1944, .symbol), (0x1946, .digit), (0x1950, .letter), (0x196E, .other),
  (0x1970, .letter), (0x1975, .other), (0x1980, .letter), (0x19AC, .other), (0x19B0, .letter),
  (0x19CA, .other), (0x19D0, .digit), (0x19DB, .other), (0x19DE, .symbol), (0x1A00, .letter),
  (0x1A17, .mark), (0x1A1C, .other), (0x1A1E, .symbol), (0x1A20, .letter), (0x1A55, .mark),
  (0x1A5F, .other), (0x1A60, .mark), (0x1A7D, .other), (0x1A7F, .mark), (0x1A80, .digit),
  (0x1A8A, .other), (0x1A90, .digit), (0x1A9A, .other), (0x1AA0, .symbol), (0x1AA7, .letter),
  (0x1AA8, .symbol), (0x1AAE, .other), (0x1AB0, .mark), (0x1ABE, .symbol), (0x1ABF, .mark),
  (0x1ACF, .other), (0x1B00, .mark), (0x1B05, .letter), (0x1B34, .mark), (0x1B45, .letter),
  (0x1B4D, .other), (0x1B50, .digit), (0x1B5A, .symbol), (0x1B6B, .mark), (0x1B74, .symbol),
  (0x1B7F, .other), (0x1B80, .mark), (0x1B83, .letter), (0x1BA1, .mark), (0x1BAE, .letter),
  (0x1BB0, .digit), (0x1BBA, .letter), (0x1BE6, .mark), (0x1BF4, .other), (0x1BFC, .symbol),
  (0x1C00, .letter), (0x1C24, .mark), (0x1C38, .other), (0x1C3B, .symbol), (0x1C40, .digit),
  (0x1C4A, .other), (0x1C4D, .letter), (0x1C50, .digit), (0x1C5A, .letter), (0x1C7E, .symbol),
  (0x1C80, .letter), (0x1C89, .other), (0x1C90, .letter), (0x1CBB, .other), (0x1CBD, .letter),
  (0x1CC0, .symbol), (0x1CC8, .other), (0x1CD0, .mark), (0x1CD3, .symbol), (0x1CD4, .mark),
  (0x1CE9, .letter), (0x1CED, .mark), (0x1CEE, .letter), (0x1CF4, .mark), (0x1CF5, .letter),
  (0x1CF7, .mark), (0x1CFA, .letter), (0x1CFB, .other), (0x1D00, .letter), (0x1DC0, .mark),
  (0x1E00, .letter), (0x1F16, .other), (0x1F18, .letter), (0x1F1E, .other), (0x1F20, .letter),
  (0x1F46, .other), (0x1F48, .letter), (0x1F4E, .other), (0x1F50, .letter), (0x1F58, .other),
  (0x1F59, .letter)]

/-- The runs from U+1F5A on. -/
def runsFrom1F5A : List (Nat × Kind) := [
  (0x1F5A, .other), (0x1F5B, .letter), (0x1F5C, .other), (0x1F5D, .letter), (0x1F5E, .other),
  (0x1F5F, .letter), (0x1F7E, .other), (0x1F80, .letter), (0x1FB5, .other), (0x1FB6, .letter),
  (0x1FBD, .symbol), (0x1FBE, .letter), (0x1FBF, .symbol), (0x1FC2, .letter), (0x1FC5, .other),
  (0x1FC6, .letter), (0x1FCD, .symbol), (0x1FD0, .letter), (0x1FD4, .other), (0x1FD6, .letter),
  (0x1FDC, .other), (0x1FDD, .symbol), (0x1FE0, .letter), (0x1FED, .symbol), (0x1FF0, .other),
  (0x1FF2, .letter), (0x1FF5, .other), (0x1FF6, .letter), (0x1FFD, .symbol), (0x1FFF, .other),
  (0x2000, .gap), (0x200B, .other), (0x2010, .symbol), (0x2028, .gap), (0x202A, .other),
  (0x202F, .gap), (0x2030, .symbol), (0x203F, .mark), (0x2041, .symbol), (0x2054, .mark),
  (0x2055, .symbol), (0x205F, .gap), (0x2060, .other), (0x2070, .numeral), (0x2071, .letter),
  (0x2072, .other), (0x2074, .numeral), (0x207A, .symbol), (0x207F, .letter), (0x2080, .numeral),
  (0x208A, .symbol), (0x208F, .other), (0x2090, .letter), (0x209D, .other), (0x20A0, .symbol),
  (0x20C1, .other), (0x20D0, .mark), (0x20DD, .symbol), (0x20E1, .mark), (0x20E2, .symbol),
  (0x20E5, .mark), (0x20F1, .other), (0x2100, .symbol), (0x2102, .letter), (0x2103, .symbol),
  (0x2107, .letter), (0x2108, .symbol), (0x210A, .letter), (0x2114, .symbol), (0x2115, .letter),
  (0x2116, .symbol), (0x2118, .joiner), (0x2119, .letter), (0x211E, .symbol), (0x2124, .letter),
  (0x2125, .symbol), (0x2126, .letter), (0x2127, .symbol), (0x2128, .letter), (0x2129, .symbol),
  (0x212A, .letter), (0x212E, .joiner), (0x212F, .letter), (0x213A, .symbol), (0x213C, .letter),
  (0x2140, .symbol), (0x2145, .letter), (0x214A, .symbol), (0x214E, .letter), (0x214F, .symbol),
  (0x2150, .numeral), (0x2160, .letter), (0x2189, .numeral), (0x218A, .symbol), (0x218C, .other),
  (0x2190, .symbol), (0x2427, .other), (0x2440, .symbol), (0x244B, .other), (0x2460, .numeral),
  (0x249C, .symbol), (0x24EA, .numeral), (0x2500, .symbol), (0x2776, .numeral),
  (0x2794, .symbol), (0x2B74, .other), (0x2B76, .symbol), (0x2B96, .other), (0x2B97, .symbol),
  (0x2C00, .letter), (0x2CE5, .symbol), (0x2CEB, .letter), (0x2CEF, .mark), (0x2CF2, .letter),
  (0x2CF4, .other), (0x2CF9, .symbol), (0x2CFD, .numeral), (0x2CFE, .symbol), (0x2D00, .letter),
  (0x2D26, .other), (0x2D27, .letter), (0x2D28, .other), (0x2D2D, .letter), (0x2D2E, .other),
  (0x2D30, .letter), (0x2D68, .other), (0x2D6F, .letter), (0x2D70, .symbol), (0x2D71, .other),
  (0x2D7F, .mark), (0x2D80, .letter), (0x2D97, .other), (0x2DA0, .letter), (0x2DA7, .other),
  (0x2DA8, .letter), (0x2DAF, .other), (0x2DB0, .letter), (0x2DB7, .other), (0x2DB8, .letter),
  (0x2DBF, .other), (0x2DC0, .letter), (0x2DC7, .other), (0x2DC8, .letter), (0x2DCF, .other),
  (0x2DD0, .letter), (0x2DD7, .other), (0x2DD8, .letter), (0x2DDF, .other), (0x2DE0, .mark),
  (0x2E00, .symbol), (0x2E2F, .numeral), (0x2E30, .symbol), (0x2E5E, .other), (0x2E80, .symbol),
  (0x2E9A, .other), (0x2E9B, .symbol), (0x2EF4, .other), (0x2F00, .symbol), (0x2FD6, .other),
  (0x2FF0, .symbol), (0x2FFC, .other), (0x3000, .gap), (0x3001, .symbol), (0x3005, .letter),
  (0x3008, .symbol), (0x3021, .letter), (0x302A, .mark), (0x3030, .symbol), (0x3031, .letter),
  (0x3036, .symbol), (0x3038, .letter), (0x303D, .symbol), (0x3040, .other), (0x3041, .letter),
  (0x3097, .other), (0x3099, .mark), (0x309B, .symbol), (0x309D, .letter), (0x30A0, .symbol),
  (0x30A1, .letter), (0x30FB, .symbol), (0x30FC, .letter), (0x3100, .other), (0x3105, .letter),
  (0x3130, .other), (0x3131, .letter), (0x318F, .other), (0x3190, .symbol), (0x3192, .numeral),
  (0x3196, .symbol), (0x31A0, .letter), (0x31C0, .symbol), (0x31E4, .other), (0x31F0, .letter),
  (0x3200, .symbol), (0x321F, .other), (0x3220, .numeral), (0x322A, .symbol), (0x3248, .numeral),
  (0x3250, .symbol), (0x3251, .numeral), (0x3260, .symbol), (0x3280, .numeral),
  (0x328A, .symbol), (0x32B1, .numeral), (0x32C0, .symbol), (0x3400, .letter), (0x4DC0, .symbol),
  (0x4E00, .letter), (0xA48D, .other), (0xA490, .symbol), (0xA4C7, .other), (0xA4D0, .letter),
  (0xA4FE, .symbol), (0xA500, .letter), (0xA60D, .symbol), (0xA610, .letter), (0xA620, .digit),
  (0xA62A, .letter), (0xA62C, .other), (0xA640, .letter), (0xA66F, .mark), (0xA670, .symbol),
  (0xA674, .mark), (0xA67E, .symbol), (0xA67F, .letter), (0xA69E, .mark), (0xA6A0, .letter),
  (0xA6F0, .mark), (0xA6F2, .symbol), (0xA6F8, .other), (0xA700, .symbol), (0xA717, .letter),
  (0xA720, .symbol), (0xA722, .letter), (0xA789, .symbol), (0xA78B, .letter), (0xA7CB, .other),
  (0xA7D0, .letter), (0xA7D2, .other), (0xA7D3, .letter), (0xA7D4, .other), (0xA7D5, .letter),
  (0xA7DA, .other), (0xA7F2, .letter), (0xA802, .mark), (0xA803, .letter), (0xA806, .mark),
  (0xA807, .letter), (0xA80B, .mark), (0xA80C, .letter), (0xA823, .mark), (0xA828, .symbol),
  (0xA82C, .mark), (0xA82D, .other), (0xA830, .numeral)]

/-- The runs from U+A836 on. -/
def runsFromA836 : List (Nat × Kind) := [
  (0xA836, .symbol), (0xA83A, .other), (0xA840, .letter), (0xA874, .symbol), (0xA878, .other),
  (0xA880, .mark), (0xA882, .letter), (0xA8B4, .mark), (0xA8C6, .other), (0xA8CE, .symbol),
  (0xA8D0, .digit), (0xA8DA, .other), (0xA8E0, .mark), (0xA8F2, .letter), (0xA8F8, .symbol),
  (0xA8FB, .letter), (0xA8FC, .symbol), (0xA8FD, .letter), (0xA8FF, .mark), (0xA900, .digit),
  (0xA90A, .letter), (0xA926, .mark), (0xA92E, .symbol), (0xA930, .letter), (0xA947, .mark),
  (0xA954, .other), (0xA95F, .symbol), (0xA960, .letter), (0xA97D, .other), (0xA980, .mark),
  (0xA984, .letter), (0xA9B3, .mark), (0xA9C1, .symbol), (0xA9CE, .other), (0xA9CF, .letter),
  (0xA9D0, .digit), (0xA9DA, .other), (0xA9DE, .symbol), (0xA9E0, .letter), (0xA9E5, .mark),
  (0xA9E6, .letter), (0xA9F0, .digit), (0xA9FA, .letter), (0xA9FF, .other), (0xAA00, .letter),
  (0xAA29, .mark), (0xAA37, .other), (0xAA40, .letter), (0xAA43, .mark), (0xAA44, .letter),
  (0xAA4C, .mark), (0xAA4E, .other), (0xAA50, .digit), (0xAA5A, .other), (0xAA5C, .symbol),
  (0xAA60, .letter), (0xAA77, .symbol), (0xAA7A, .letter), (0xAA7B, .mark), (0xAA7E, .letter),
  (0xAAB0, .mark), (0xAAB1, .letter), (0xAAB2, .mark), (0xAAB5, .letter), (0xAAB7, .mark),
  (0xAAB9, .letter), (0xAABE, .mark), (0xAAC0, .letter), (0xAAC1, .mark), (0xAAC2, .letter),
  (0xAAC3, .other), (0xAADB, .letter), (0xAADE, .symbol), (0xAAE0, .letter), (0xAAEB, .mark),
  (0xAAF0, .symbol), (0xAAF2, .letter), (0xAAF5, .mark), (0xAAF7, .other), (0xAB01, .letter),
  (0xAB07, .other), (0xAB09, .letter), (0xAB0F, .other), (0xAB11, .letter), (0xAB17, .other),
  (0xAB20, .letter), (0xAB27, .other), (0xAB28, .letter), (0xAB2F, .other), (0xAB30, .letter),
  (0xAB5B, .symbol), (0xAB5C, .letter), (0xAB6A, .symbol), (0xAB6C, .other), (0xAB70, .letter),
  (0xABE3, .mark), (0xABEB, .symbol), (0xABEC, .mark), (0xABEE, .other), (0xABF0, .digit),
  (0xABFA, .other), (0xAC00, .letter), (0xD7A4, .other), (0xD7B0, .letter), (0xD7C7, .other),
  (0xD7CB, .letter), (0xD7FC, .other), (0xF900, .letter), (0xFA6E, .other), (0xFA70, .letter),
  (0xFADA, .other), (0xFB00, .letter), (0xFB07, .other), (0xFB13, .letter), (0xFB18, .other),
  (0xFB1D, .letter), (0xFB1E, .mark), (0xFB1F, .letter), (0xFB29, .symbol), (0xFB2A, .letter),
  (0xFB37, .other), (0xFB38, .letter), (0xFB3D, .other), (0xFB3E, .letter), (0xFB3F, .other),
  (0xFB40, .letter), (0xFB42, .other), (0xFB43, .letter), (0xFB45, .other), (0xFB46, .letter),
  (0xFBB2, .symbol), (0xFBC3, .other), (0xFBD3, .letter), (0xFC5E, .numeral), (0xFC64, .letter),
  (0xFD3E, .symbol), (0xFD50, .letter), (0xFD90, .other), (0xFD92, .letter), (0xFDC8, .other),
  (0xFDCF, .symbol), (0xFDD0, .other), (0xFDF0, .letter), (0xFDFA, .numeral), (0xFDFC, .symbol),
  (0xFE00, .mark), (0xFE10, .symbol), (0xFE1A, .other), (0xFE20, .mark), (0xFE30, .symbol),
  (0xFE33, .mark), (0xFE35, .symbol), (0xFE4D, .mark), (0xFE50, .symbol), (0xFE53, .other),
  (0xFE54, .symbol), (0xFE67, .other), (0xFE68, .symbol), (0xFE6C, .other), (0xFE70, .numeral),
  (0xFE71, .letter), (0xFE72, .numeral), (0xFE73, .letter), (0xFE74, .numeral), (0xFE75, .other),
  (0xFE76, .numeral), (0xFE77, .letter), (0xFE78, .numeral), (0xFE79, .letter),
  (0xFE7A, .numeral), (0xFE7B, .letter), (0xFE7C, .numeral), (0xFE7D, .letter),
  (0xFE7E, .numeral), (0xFE7F, .letter), (0xFEFD, .other), (0xFF01, .symbol), (0xFF10, .digit),
  (0xFF1A, .symbol), (0xFF21, .letter), (0xFF3B, .symbol), (0xFF3F, .mark), (0xFF40, .symbol),
  (0xFF41, .letter), (0xFF5B, .symbol), (0xFF66, .letter), (0xFF9E, .digit), (0xFFA0, .letter),
  (0xFFBF, .other), (0xFFC2, .letter), (0xFFC8, .other), (0xFFCA, .letter), (0xFFD0, .other),
  (0xFFD2, .letter), (0xFFD8, .other), (0xFFDA, .letter), (0xFFDD, .other), (0xFFE0, .symbol),
  (0xFFE7, .other), (0xFFE8, .symbol), (0xFFEF, .other), (0xFFFC, .symbol), (0xFFFE, .other),
  (0x10000, .letter), (0x1000C, .other), (0x1000D, .letter), (0x10027, .other),
  (0x10028, .letter), (0x1003B, .other), (0x1003C, .letter), (0x1003E, .other),
  (0x1003F, .letter), (0x1004E, .other), (0x10050, .letter), (0x1005E, .other),
  (0x10080, .letter), (0x100FB, .other), (0x10100, .symbol), (0x10103, .other),
  (0x10107, .numeral), (0x10134, .other), (0x10137, .symbol), (0x10140, .letter),
  (0x10175, .numeral), (0x10179, .symbol), (0x1018A, .numeral), (0x1018C, .symbol),
  (0x1018F, .other), (0x10190, .symbol), (0x1019D, .other), (0x101A0, .symbol),
  (0x101A1, .other), (0x101D0, .symbol), (0x101FD, .mark), (0x101FE, .other), (0x10280, .letter),
  (0x1029D, .other), (0x102A0, .letter), (0x102D1, .other), (0x102E0, .mark),
  (0x102E1, .numeral), (0x102FC, .other), (0x10300, .letter), (0x10320, .numeral),
  (0x10324, .other), (0x1032D, .letter), (0x1034B, .other), (0x10350, .letter), (0x10376, .mark),
  (0x1037B, .other), (0x10380, .letter), (0x1039E, .other), (0x1039F, .symbol),
  (0x103A0, .letter), (0x103C4, .other), (0x103C8, .letter)]

/-- The runs from U+103D0 on. -/
def runsFrom103D0 : List (Nat × Kind) := [
  (0x103D0, .symbol), (0x103D1, .letter), (0x103D6, .other), (0x10400, .letter),
  (0x1049E, .other), (0x104A0, .digit), (0x104AA, .other), (0x104B0, .letter), (0x104D4, .other),
  (0x104D8, .letter), (0x104FC, .other), (0x10500, .letter), (0x10528, .other),
  (0x10530, .letter), (0x10564, .other), (0x1056F, .symbol), (0x10570, .letter),
  (0x1057B, .other), (0x1057C, .letter), (0x1058B, .other), (0x1058C, .letter),
  (0x10593, .other), (0x10594, .letter), (0x10596, .other), (0x10597, .letter),
  (0x105A2, .other), (0x105A3, .letter), (0x105B2, .other), (0x105B3, .letter),
  (0x105BA, .other), (0x105BB, .letter), (0x105BD, .other), (0x10600, .letter),
  (0x10737, .other), (0x10740, .letter), (0x10756, .other), (0x10760, .letter),
  (0x10768, .other), (0x10780, .letter), (0x10786, .other), (0x10787, .letter),
  (0x107B1, .other), (0x107B2, .letter), (0x107BB, .other), (0x10800, .letter),
  (0x10806, .other), (0x10808, .letter), (0x10809, .other), (0x1080A, .letter),
  (0x10836, .other), (0x10837, .letter), (0x10839, .other), (0x1083C, .letter),
  (0x1083D, .other), (0x1083F, .letter), (0x10856, .other), (0x10857, .symbol),
  (0x10858, .numeral), (0x10860, .letter), (0x10877, .symbol), (0x10879, .numeral),
  (0x10880, .letter), (0x1089F, .other), (0x108A7, .numeral), (0x108B0, .other),
  (0x108E0, .letter), (0x108F3, .other), (0x108F4, .letter), (0x108F6, .other),
  (0x108FB, .numeral), (0x10900, .letter), (0x10916, .numeral), (0x1091C, .other),
  (0x1091F, .symbol), (0x10920, .letter), (0x1093A, .other), (0x1093F, .symbol),
  (0x10940, .other), (0x10980, .letter), (0x109B8, .other), (0x109BC, .numeral),
  (0x109BE, .letter), (0x109C0, .numeral), (0x109D0, .other), (0x109D2, .numeral),
  (0x10A00, .letter), (0x10A01, .mark), (0x10A04, .other), (0x10A05, .mark), (0x10A07, .other),
  (0x10A0C, .mark), (0x10A10, .letter), (0x10A14, .other), (0x10A15, .letter), (0x10A18, .other),
  (0x10A19, .letter), (0x10A36, .other), (0x10A38, .mark), (0x10A3B, .other), (0x10A3F, .mark),
  (0x10A40, .numeral), (0x10A49, .other), (0x10A50, .symbol), (0x10A59, .other),
  (0x10A60, .letter), (0x10A7D, .numeral), (0x10A7F, .symbol), (0x10A80, .letter),
  (0x10A9D, .numeral), (0x10AA0, .other), (0x10AC0, .letter), (0x10AC8, .symbol),
  (0x10AC9, .letter), (0x10AE5, .mark), (0x10AE7, .other), (0x10AEB, .numeral),
  (0x10AF0, .symbol), (0x10AF7, .other), (0x10B00, .letter), (0x10B36, .other),
  (0x10B39, .symbol), (0x10B40, .letter), (0x10B56, .other), (0x10B58, .numeral),
  (0x10B60, .letter), (0x10B73, .other), (0x10B78, .numeral), (0x10B80, .letter),
  (0x10B92, .other), (0x10B99, .symbol), (0x10B9D, .other), (0x10BA9, .numeral),
  (0x10BB0, .other), (0x10C00, .letter), (0x10C49, .other), (0x10C80, .letter),
  (0x10CB3, .other), (0x10CC0, .letter), (0x10CF3, .other), (0x10CFA, .numeral),
  (0x10D00, .letter), (0x10D24, .mark), (0x10D28, .other), (0x10D30, .digit), (0x10D3A, .other),
  (0x10E60, .numeral), (0x10E7F, .other), (0x10E80, .letter), (0x10EAA, .other),
  (0x10EAB, .mark), (0x10EAD, .symbol), (0x10EAE, .other), (0x10EB0, .letter), (0x10EB2, .other),
  (0x10F00, .letter), (0x10F1D, .numeral), (0x10F27, .letter), (0x10F28, .other),
  (0x10F30, .letter), (0x10F46, .mark), (0x10F51, .numeral), (0x10F55, .symbol),
  (0x10F5A, .other), (0x10F70, .letter), (0x10F82, .mark), (0x10F86, .symbol), (0x10F8A, .other),
  (0x10FB0, .letter), (0x10FC5, .numeral), (0x10FCC, .other), (0x10FE0, .letter),
  (0x10FF7, .other), (0x11000, .mark), (0x11003, .letter), (0x11038, .mark), (0x11047, .symbol),
  (0x1104E, .other), (0x11052, .numeral), (0x11066, .digit), (0x11070, .mark),
  (0x11071, .letter), (0x11073, .mark), (0x11075, .letter), (0x11076, .other), (0x1107F, .mark),
  (0x11083, .letter), (0x110B0, .mark), (0x110BB, .symbol), (0x110BD, .other),
  (0x110BE, .symbol), (0x110C2, .mark), (0x110C3, .other), (0x110D0, .letter), (0x110E9, .other),
  (0x110F0, .digit), (0x110FA, .other), (0x11100, .mark), (0x11103, .letter), (0x11127, .mark),
  (0x11135, .other), (0x11136, .digit), (0x11140, .symbol), (0x11144, .letter), (0x11145, .mark),
  (0x11147, .letter), (0x11148, .other), (0x11150, .letter), (0x11173, .mark),
  (0x11174, .symbol), (0x11176, .letter), (0x11177, .other), (0x11180, .mark),
  (0x11183, .letter), (0x111B3, .mark), (0x111C1, .letter), (0x111C5, .symbol), (0x111C9, .mark),
  (0x111CD, .symbol), (0x111CE, .mark), (0x111D0, .digit), (0x111DA, .letter),
  (0x111DB, .symbol), (0x111DC, .letter), (0x111DD, .symbol), (0x111E0, .other),
  (0x111E1, .numeral), (0x111F5, .other), (0x11200, .letter), (0x11212, .other),
  (0x11213, .letter), (0x1122C, .mark), (0x11238, .symbol), (0x1123E, .mark), (0x1123F, .other),
  (0x11280, .letter), (0x11287, .other), (0x11288, .letter), (0x11289, .other),
  (0x1128A, .letter), (0x1128E, .other), (0x1128F, .letter), (0x1129E, .other),
  (0x1129F, .letter), (0x112A9, .symbol), (0x112AA, .other), (0x112B0, .letter),
  (0x112DF, .mark), (0x112EB, .other), (0x112F0, .digit), (0x112FA, .other), (0x11300, .mark),
  (0x11304, .other), (0x11305, .letter), (0x1130D, .other), (0x1130F, .letter),
  (0x11311, .other)]

/-- The runs from U+11313 on. -/
def runsFrom11313 : List (Nat × Kind) := [
  (0x11313, .letter), (0x11329, .other), (0x1132A, .letter), (0x11331, .other),
  (0x11332, .letter), (0x11334, .other), (0x11335, .letter), (0x1133A, .other), (0x1133B, .mark),
  (0x1133D, .letter), (0x1133E, .mark), (0x11345, .other), (0x11347, .mark), (0x11349, .other),
  (0x1134B, .mark), (0x1134E, .other), (0x11350, .letter), (0x11351, .other), (0x11357, .mark),
  (0x11358, .other), (0x1135D, .letter), (0x11362, .mark), (0x11364, .other), (0x11366, .mark),
  (0x1136D, .other), (0x11370, .mark), (0x11375, .other), (0x11400, .letter), (0x11435, .mark),
  (0x11447, .letter), (0x1144B, .symbol), (0x11450, .digit), (0x1145A, .symbol),
  (0x1145C, .other), (0x1145D, .symbol), (0x1145E, .mark), (0x1145F, .letter), (0x11462, .other),
  (0x11480, .letter), (0x114B0, .mark), (0x114C4, .letter), (0x114C6, .symbol),
  (0x114C7, .letter), (0x114C8, .other), (0x114D0, .digit), (0x114DA, .other),
  (0x11580, .letter), (0x115AF, .mark), (0x115B6, .other), (0x115B8, .mark), (0x115C1, .symbol),
  (0x115D8, .letter), (0x115DC, .mark), (0x115DE, .other), (0x11600, .letter), (0x11630, .mark),
  (0x11641, .symbol), (0x11644, .letter), (0x11645, .other), (0x11650, .digit),
  (0x1165A, .other), (0x11660, .symbol), (0x1166D, .other), (0x11680, .letter), (0x116AB, .mark),
  (0x116B8, .letter), (0x116B9, .symbol), (0x116BA, .other), (0x116C0, .digit),
  (0x116CA, .other), (0x11700, .letter), (0x1171B, .other), (0x1171D, .mark), (0x1172C, .other),
  (0x11730, .digit), (0x1173A, .numeral), (0x1173C, .symbol), (0x11740, .letter),
  (0x11747, .other), (0x11800, .letter), (0x1182C, .mark), (0x1183B, .symbol), (0x1183C, .other),
  (0x118A0, .letter), (0x118E0, .digit), (0x118EA, .numeral), (0x118F3, .other),
  (0x118FF, .letter), (0x11907, .other), (0x11909, .letter), (0x1190A, .other),
  (0x1190C, .letter), (0x11914, .other), (0x11915, .letter), (0x11917, .other),
  (0x11918, .letter), (0x11930, .mark), (0x11936, .other), (0x11937, .mark), (0x11939, .other),
  (0x1193B, .mark), (0x1193F, .letter), (0x11940, .mark), (0x11941, .letter), (0x11942, .mark),
  (0x11944, .symbol), (0x11947, .other), (0x11950, .digit), (0x1195A, .other),
  (0x119A0, .letter), (0x119A8, .other), (0x119AA, .letter), (0x119D1, .mark), (0x119D8, .other),
  (0x119DA, .mark), (0x119E1, .letter), (0x119E2, .symbol), (0x119E3, .letter), (0x119E4, .mark),
  (0x119E5, .other), (0x11A00, .letter), (0x11A01, .mark), (0x11A0B, .letter), (0x11A33, .mark),
  (0x11A3A, .letter), (0x11A3B, .mark), (0x11A3F, .symbol), (0x11A47, .mark), (0x11A48, .other),
  (0x11A50, .letter), (0x11A51, .mark), (0x11A5C, .letter), (0x11A8A, .mark), (0x11A9A, .symbol),
  (0x11A9D, .letter), (0x11A9E, .symbol), (0x11AA3, .other), (0x11AB0, .letter),
  (0x11AF9, .other), (0x11C00, .letter), (0x11C09, .other), (0x11C0A, .letter), (0x11C2F, .mark),
  (0x11C37, .other), (0x11C38, .mark), (0x11C40, .letter), (0x11C41, .symbol), (0x11C46, .other),
  (0x11C50, .digit), (0x11C5A, .numeral), (0x11C6D, .other), (0x11C70, .symbol),
  (0x11C72, .letter), (0x11C90, .other), (0x11C92, .mark), (0x11CA8, .other), (0x11CA9, .mark),
  (0x11CB7, .other), (0x11D00, .letter), (0x11D07, .other), (0x11D08, .letter),
  (0x11D0A, .other), (0x11D0B, .letter), (0x11D31, .mark), (0x11D37, .other), (0x11D3A, .mark),
  (0x11D3B, .other), (0x11D3C, .mark), (0x11D3E, .other), (0x11D3F, .mark), (0x11D46, .letter),
  (0x11D47, .mark), (0x11D48, .other), (0x11D50, .digit), (0x11D5A, .other), (0x11D60, .letter),
  (0x11D66, .other), (0x11D67, .letter), (0x11D69, .other), (0x11D6A, .letter), (0x11D8A, .mark),
  (0x11D8F, .other), (0x11D90, .mark), (0x11D92, .other), (0x11D93, .mark), (0x11D98, .letter),
  (0x11D99, .other), (0x11DA0, .digit), (0x11DAA, .other), (0x11EE0, .letter), (0x11EF3, .mark),
  (0x11EF7, .symbol), (0x11EF9, .other), (0x11FB0, .letter), (0x11FB1, .other),
  (0x11FC0, .numeral), (0x11FD5, .symbol), (0x11FF2, .other), (0x11FFF, .symbol),
  (0x12000, .letter), (0x1239A, .other), (0x12400, .letter), (0x1246F, .other),
  (0x12470, .symbol), (0x12475, .other), (0x12480, .letter), (0x12544, .other),
  (0x12F90, .letter), (0x12FF1, .symbol), (0x12FF3, .other), (0x13000, .letter),
  (0x1342F, .other), (0x14400, .letter), (0x14647, .other), (0x16800, .letter),
  (0x16A39, .other), (0x16A40, .letter), (0x16A5F, .other), (0x16A60, .digit), (0x16A6A, .other),
  (0x16A6E, .symbol), (0x16A70, .letter), (0x16ABF, .other), (0x16AC0, .digit),
  (0x16ACA, .other), (0x16AD0, .letter), (0x16AEE, .other), (0x16AF0, .mark), (0x16AF5, .symbol),
  (0x16AF6, .other), (0x16B00, .letter), (0x16B30, .mark), (0x16B37, .symbol),
  (0x16B40, .letter), (0x16B44, .symbol), (0x16B46, .other), (0x16B50, .digit),
  (0x16B5A, .other), (0x16B5B, .numeral), (0x16B62, .other), (0x16B63, .letter),
  (0x16B78, .other), (0x16B7D, .letter), (0x16B90, .other), (0x16E40, .letter),
  (0x16E80, .numeral), (0x16E97, .symbol), (0x16E9B, .other), (0x16F00, .letter),
  (0x16F4B, .other), (0x16F4F, .mark), (0x16F50, .letter), (0x16F51, .mark), (0x16F88, .other),
  (0x16F8F, .mark), (0x16F93, .letter)]

/-- The runs from U+16FA0 on. -/
def runsFrom16FA0 : List (Nat × Kind) := [
  (0x16FA0, .other), (0x16FE0, .letter), (0x16FE2, .symbol), (0x16FE3, .letter),
  (0x16FE4, .mark), (0x16FE5, .other), (0x16FF0, .mark), (0x16FF2, .other), (0x17000, .letter),
  (0x187F8, .other), (0x18800, .letter), (0x18CD6, .other), (0x18D00, .letter),
  (0x18D09, .other), (0x1AFF0, .letter), (0x1AFF4, .other), (0x1AFF5, .letter),
  (0x1AFFC, .other), (0x1AFFD, .letter), (0x1AFFF, .other), (0x1B000, .letter),
  (0x1B123, .other), (0x1B150, .letter), (0x1B153, .other), (0x1B164, .letter),
  (0x1B168, .other), (0x1B170, .letter), (0x1B2FC, .other), (0x1BC00, .letter),
  (0x1BC6B, .other), (0x1BC70, .letter), (0x1BC7D, .other), (0x1BC80, .letter),
  (0x1BC89, .other), (0x1BC90, .letter), (0x1BC9A, .other), (0x1BC9C, .symbol), (0x1BC9D, .mark),
  (0x1BC9F, .symbol), (0x1BCA0, .other), (0x1CF00, .mark), (0x1CF2E, .other), (0x1CF30, .mark),
  (0x1CF47, .other), (0x1CF50, .symbol), (0x1CFC4, .other), (0x1D000, .symbol),
  (0x1D0F6, .other), (0x1D100, .symbol), (0x1D127, .other), (0x1D129, .symbol), (0x1D165, .mark),
  (0x1D16A, .symbol), (0x1D16D, .mark), (0x1D173, .other), (0x1D17B, .mark), (0x1D183, .symbol),
  (0x1D185, .mark), (0x1D18C, .symbol), (0x1D1AA, .mark), (0x1D1AE, .symbol), (0x1D1EB, .other),
  (0x1D200, .symbol), (0x1D242, .mark), (0x1D245, .symbol), (0x1D246, .other),
  (0x1D2E0, .numeral), (0x1D2F4, .other), (0x1D300, .symbol), (0x1D357, .other),
  (0x1D360, .numeral), (0x1D379, .other), (0x1D400, .letter), (0x1D455, .other),
  (0x1D456, .letter), (0x1D49D, .other), (0x1D49E, .letter), (0x1D4A0, .other),
  (0x1D4A2, .letter), (0x1D4A3, .other), (0x1D4A5, .letter), (0x1D4A7, .other),
  (0x1D4A9, .letter), (0x1D4AD, .other), (0x1D4AE, .letter), (0x1D4BA, .other),
  (0x1D4BB, .letter), (0x1D4BC, .other), (0x1D4BD, .letter), (0x1D4C4, .other),
  (0x1D4C5, .letter), (0x1D506, .other), (0x1D507, .letter), (0x1D50B, .other),
  (0x1D50D, .letter), (0x1D515, .other), (0x1D516, .letter), (0x1D51D, .other),
  (0x1D51E, .letter), (0x1D53A, .other), (0x1D53B, .letter), (0x1D53F, .other),
  (0x1D540, .letter), (0x1D545, .other), (0x1D546, .letter), (0x1D547, .other),
  (0x1D54A, .letter), (0x1D551, .other), (0x1D552, .letter), (0x1D6A6, .other),
  (0x1D6A8, .letter), (0x1D6C1, .symbol), (0x1D6C2, .letter), (0x1D6DB, .symbol),
  (0x1D6DC, .letter), (0x1D6FB, .symbol), (0x1D6FC, .letter), (0x1D715, .symbol),
  (0x1D716, .letter), (0x1D735, .symbol), (0x1D736, .letter), (0x1D74F, .symbol),
  (0x1D750, .letter), (0x1D76F, .symbol), (0x1D770, .letter), (0x1D789, .symbol),
  (0x1D78A, .letter), (0x1D7A9, .symbol), (0x1D7AA, .letter), (0x1D7C3, .symbol),
  (0x1D7C4, .letter), (0x1D7CC, .other), (0x1D7CE, .digit), (0x1D800, .symbol), (0x1DA00, .mark),
  (0x1DA37, .symbol), (0x1DA3B, .mark), (0x1DA6D, .symbol), (0x1DA75, .mark), (0x1DA76, .symbol),
  (0x1DA84, .mark), (0x1DA85, .symbol), (0x1DA8C, .other), (0x1DA9B, .mark), (0x1DAA0, .other),
  (0x1DAA1, .mark), (0x1DAB0, .other), (0x1DF00, .letter), (0x1DF1F, .other), (0x1E000, .mark),
  (0x1E007, .other), (0x1E008, .mark), (0x1E019, .other), (0x1E01B, .mark), (0x1E022, .other),
  (0x1E023, .mark), (0x1E025, .other), (0x1E026, .mark), (0x1E02B, .other), (0x1E100, .letter),
  (0x1E12D, .other), (0x1E130, .mark), (0x1E137, .letter), (0x1E13E, .other), (0x1E140, .digit),
  (0x1E14A, .other), (0x1E14E, .letter), (0x1E14F, .symbol), (0x1E150, .other),
  (0x1E290, .letter), (0x1E2AE, .mark), (0x1E2AF, .other), (0x1E2C0, .letter), (0x1E2EC, .mark),
  (0x1E2F0, .digit), (0x1E2FA, .other), (0x1E2FF, .symbol), (0x1E300, .other),
  (0x1E7E0, .letter), (0x1E7E7, .other), (0x1E7E8, .letter), (0x1E7EC, .other),
  (0x1E7ED, .letter), (0x1E7EF, .other), (0x1E7F0, .letter), (0x1E7FF, .other),
  (0x1E800, .letter), (0x1E8C5, .other), (0x1E8C7, .numeral), (0x1E8D0, .mark),
  (0x1E8D7, .other), (0x1E900, .letter), (0x1E944, .mark), (0x1E94B, .letter), (0x1E94C, .other),
  (0x1E950, .digit), (0x1E95A, .other), (0x1E95E, .symbol), (0x1E960, .other),
  (0x1EC71, .numeral), (0x1ECAC, .symbol), (0x1ECAD, .numeral), (0x1ECB0, .symbol),
  (0x1ECB1, .numeral), (0x1ECB5, .other), (0x1ED01, .numeral), (0x1ED2E, .symbol),
  (0x1ED2F, .numeral), (0x1ED3E, .other), (0x1EE00, .letter), (0x1EE04, .other),
  (0x1EE05, .letter), (0x1EE20, .other), (0x1EE21, .letter), (0x1EE23, .other),
  (0x1EE24, .letter), (0x1EE25, .other), (0x1EE27, .letter), (0x1EE28, .other),
  (0x1EE29, .letter), (0x1EE33, .other), (0x1EE34, .letter), (0x1EE38, .other),
  (0x1EE39, .letter), (0x1EE3A, .other), (0x1EE3B, .letter), (0x1EE3C, .other),
  (0x1EE42, .letter), (0x1EE43, .other), (0x1EE47, .letter), (0x1EE48, .other),
  (0x1EE49, .letter), (0x1EE4A, .other), (0x1EE4B, .letter), (0x1EE4C, .other),
  (0x1EE4D, .letter), (0x1EE50, .other), (0x1EE51, .letter), (0x1EE53, .other),
  (0x1EE54, .letter), (0x1EE55, .other), (0x1EE57, .letter), (0x1EE58, .other),
  (0x1EE59, .letter), (0x1EE5A, .other), (0x1EE5B, .letter), (0x1EE5C, .other),
  (0x1EE5D, .letter), (0x1EE5E, .other), (0x1EE5F, .letter), (0x1EE60, .other),
  (0x1EE61, .letter), (0x1EE63, .other), (0x1EE64, .letter), (0x1EE65, .other),
  (0x1EE67, .letter)]

/-- The runs from U+1EE6B on. -/
def runsFrom1EE6B : List (Nat × Kind) := [
  (0x1EE6B, .other), (0x1EE6C, .letter), (0x1EE73, .other), (0x1EE74, .letter),
  (0x1EE78, .other), (0x1EE79, .letter), (0x1EE7D, .other), (0x1EE7E, .letter),
  (0x1EE7F, .other), (0x1EE80, .letter), (0x1EE8A, .other), (0x1EE8B, .letter),
  (0x1EE9C, .other), (0x1EEA1, .letter), (0x1EEA4, .other), (0x1EEA5, .letter),
  (0x1EEAA, .other), (0x1EEAB, .letter), (0x1EEBC, .other), (0x1EEF0, .symbol),
  (0x1EEF2, .other), (0x1F000, .symbol), (0x1F02C, .other), (0x1F030, .symbol),
  (0x1F094, .other), (0x1F0A0, .symbol), (0x1F0AF, .other), (0x1F0B1, .symbol),
  (0x1F0C0, .other), (0x1F0C1, .symbol), (0x1F0D0, .other), (0x1F0D1, .symbol),
  (0x1F0F6, .other), (0x1F100, .numeral), (0x1F10D, .symbol), (0x1F1AE, .other),
  (0x1F1E6, .symbol), (0x1F203, .other), (0x1F210, .symbol), (0x1F23C, .other),
  (0x1F240, .symbol), (0x1F249, .other), (0x1F250, .symbol), (0x1F252, .other),
  (0x1F260, .symbol), (0x1F266, .other), (0x1F300, .symbol), (0x1F6D8, .other),
  (0x1F6DD, .symbol), (0x1F6ED, .other), (0x1F6F0, .symbol), (0x1F6FD, .other),
  (0x1F700, .symbol), (0x1F774, .other), (0x1F780, .symbol), (0x1F7D9, .other),
  (0x1F7E0, .symbol), (0x1F7EC, .other), (0x1F7F0, .symbol), (0x1F7F1, .other),
  (0x1F800, .symbol), (0x1F80C, .other), (0x1F810, .symbol), (0x1F848, .other),
  (0x1F850, .symbol), (0x1F85A, .other), (0x1F860, .symbol), (0x1F888, .other),
  (0x1F890, .symbol), (0x1F8AE, .other), (0x1F8B0, .symbol), (0x1F8B2, .other),
  (0x1F900, .symbol), (0x1FA54, .other), (0x1FA60, .symbol), (0x1FA6E, .other),
  (0x1FA70, .symbol), (0x1FA75, .other), (0x1FA78, .symbol), (0x1FA7D, .other),
  (0x1FA80, .symbol), (0x1FA87, .other), (0x1FA90, .symbol), (0x1FAAD, .other),
  (0x1FAB0, .symbol), (0x1FABB, .other), (0x1FAC0, .symbol), (0x1FAC6, .other),
  (0x1FAD0, .symbol), (0x1FADA, .other), (0x1FAE0, .symbol), (0x1FAE8, .other),
  (0x1FAF0, .symbol), (0x1FAF7, .other), (0x1FB00, .symbol), (0x1FB93, .other),
  (0x1FB94, .symbol), (0x1FBCB, .other), (0x1FBF0, .digit), (0x1FBFA, .other),
  (0x20000, .letter), (0x2A6E0, .other), (0x2A700, .letter), (0x2B739, .other),
  (0x2B740, .letter), (0x2B81E, .other), (0x2B820, .letter), (0x2CEA2, .other),
  (0x2CEB0, .letter), (0x2EBE1, .other), (0x2F800, .letter), (0x2FA1E, .other),
  (0x30000, .letter), (0x3134B, .other), (0xE0100, .mark), (0xE01F0, .other)]

/-- Every run beyond ASCII: where it starts and the kind of its characters, in ascending order;
a run ends where the next one starts. -/
def runs : List (Nat × Kind) :=
  runsFrom0080 ++
  runsFrom0AB2 ++
  runsFrom0F37 ++
  runsFrom1F5A ++
  runsFromA836 ++
  runsFrom103D0 ++
  runsFrom11313 ++
  runsFrom16FA0 ++
  runsFrom1EE6B

end LintFront.Text
