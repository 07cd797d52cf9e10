import CredentialCeremony.Text.Decomposition

set_option autoImplicit false

/-!
# What a domain makes of a character

A domain is written without regard to case, width and form: each character is replaced by an image
before anything else is done with it. Some characters vanish, and some may not be used at all.
ASCII characters other than capital letters stay as they are; whether a domain may have them is
asked later.

Main statements: `mapping?_eq_none_iff` (which characters are refused) and `mapping?_of_image?` (an
image of its own goes before the images of the parts).
-/

namespace CredentialCeremony.Domain

/-- The characters that no domain may be written with. -/
def disallowed : List (Nat × Nat) := [
  (0x80, 0x9F), (0x378, 0x379), (0x380, 0x383), (0x38B, 0x38B), (0x38D, 0x38D), (0x3A2, 0x3A2),
  (0x530, 0x530), (0x557, 0x558), (0x58B, 0x58C), (0x590, 0x590), (0x5C8, 0x5CF), (0x5EB, 0x5EE),
  (0x5F5, 0x605), (0x61C, 0x61C), (0x6DD, 0x6DD), (0x70E, 0x70F), (0x74B, 0x74C), (0x7B2, 0x7BF),
  (0x7FB, 0x7FC), (0x82E, 0x82F), (0x83F, 0x83F), (0x85C, 0x85D), (0x85F, 0x85F), (0x86B, 0x86F),
  (0x890, 0x896), (0x8E2, 0x8E2), (0x984, 0x984), (0x98D, 0x98E), (0x991, 0x992), (0x9A9, 0x9A9),
  (0x9B1, 0x9B1), (0x9B3, 0x9B5), (0x9BA, 0x9BB), (0x9C5, 0x9C6), (0x9C9, 0x9CA), (0x9CF, 0x9D6),
  (0x9D8, 0x9DB), (0x9DE, 0x9DE), (0x9E4, 0x9E5), (0x9FF, 0xA00), (0xA04, 0xA04), (0xA0B, 0xA0E),
  (0xA11, 0xA12), (0xA29, 0xA29), (0xA31, 0xA31), (0xA34, 0xA34), (0xA37, 0xA37), (0xA3A, 0xA3B),
  (0xA3D, 0xA3D), (0xA43, 0xA46), (0xA49, 0xA4A), (0xA4E, 0xA50), (0xA52, 0xA58), (0xA5D, 0xA5D),
  (0xA5F, 0xA65), (0xA77, 0xA80), (0xA84, 0xA84), (0xA8E, 0xA8E), (0xA92, 0xA92), (0xAA9, 0xAA9),
  (0xAB1, 0xAB1), (0xAB4, 0xAB4), (0xABA, 0xABB), (0xAC6, 0xAC6), (0xACA, 0xACA), (0xACE, 0xACF),
  (0xAD1, 0xADF), (0xAE4, 0xAE5), (0xAF2, 0xAF8), (0xB00, 0xB00), (0xB04, 0xB04), (0xB0D, 0xB0E),
  (0xB11, 0xB12), (0xB29, 0xB29), (0xB31, 0xB31), (0xB34, 0xB34), (0xB3A, 0xB3B), (0xB45, 0xB46),
  (0xB49, 0xB4A), (0xB4E, 0xB54), (0xB58, 0xB5B), (0xB5E, 0xB5E), (0xB64, 0xB65), (0xB78, 0xB81),
  (0xB84, 0xB84), (0xB8B, 0xB8D), (0xB91, 0xB91), (0xB96, 0xB98), (0xB9B, 0xB9B), (0xB9D, 0xB9D),
  (0xBA0, 0xBA2), (0xBA5, 0xBA7), (0xBAB, 0xBAD), (0xBBA, 0xBBD), (0xBC3, 0xBC5), (0xBC9, 0xBC9),
  (0xBCE, 0xBCF), (0xBD1, 0xBD6), (0xBD8, 0xBE5), (0xBFB, 0xBFF), (0xC0D, 0xC0D), (0xC11, 0xC11),
  (0xC29, 0xC29), (0xC3A, 0xC3B), (0xC45, 0xC45), (0xC49, 0xC49), (0xC4E, 0xC54), (0xC57, 0xC57),
  (0xC5B, 0xC5B), (0xC5E, 0xC5F), (0xC64, 0xC65), (0xC70, 0xC76), (0xC8D, 0xC8D), (0xC91, 0xC91),
  (0xCA9, 0xCA9), (0xCB4, 0xCB4), (0xCBA, 0xCBB), (0xCC5, 0xCC5), (0xCC9, 0xCC9), (0xCCE, 0xCD4),
  (0xCD7, 0xCDB), (0xCDF, 0xCDF), (0xCE4, 0xCE5), (0xCF0, 0xCF0), (0xCF4, 0xCFF), (0xD0D, 0xD0D),
  (0xD11, 0xD11), (0xD45, 0xD45), (0xD49, 0xD49), (0xD50, 0xD53), (0xD64, 0xD65), (0xD80, 0xD80),
  (0xD84, 0xD84), (0xD97, 0xD99), (0xDB2, 0xDB2), (0xDBC, 0xDBC), (0xDBE, 0xDBF), (0xDC7, 0xDC9),
  (0xDCB, 0xDCE), (0xDD5, 0xDD5), (0xDD7, 0xDD7), (0xDE0, 0xDE5), (0xDF0, 0xDF1), (0xDF5, 0xE00),
  (0xE3B, 0xE3E), (0xE5C, 0xE80), (0xE83, 0xE83), (0xE85, 0xE85), (0xE8B, 0xE8B), (0xEA4, 0xEA4),
  (0xEA6, 0xEA6), (0xEBE, 0xEBF), (0xEC5, 0xEC5), (0xEC7, 0xEC7), (0xECF, 0xECF), (0xEDA, 0xEDB),
  (0xEE0, 0xEFF), (0xF48, 0xF48), (0xF6D, 0xF70), (0xF98, 0xF98), (0xFBD, 0xFBD), (0xFCD, 0xFCD),
  (0xFDB, 0xFFF), (0x10C6, 0x10C6), (0x10C8, 0x10CC), (0x10CE, 0x10CF), (0x1249, 0x1249),
  (0x124E, 0x124F), (0x1257, 0x1257), (0x1259, 0x1259), (0x125E, 0x125F), (0x1289, 0x1289),
  (0x128E, 0x128F), (0x12B1, 0x12B1), (0x12B6, 0x12B7), (0x12BF, 0x12BF), (0x12C1, 0x12C1),
  (0x12C6, 0x12C7), (0x12D7, 0x12D7), (0x1311, 0x1311), (0x1316, 0x1317), (0x135B, 0x135C),
  (0x137D, 0x137F), (0x139A, 0x139F), (0x13F6, 0x13F7), (0x13FE, 0x13FF), (0x1680, 0x1680),
  (0x169D, 0x169F), (0x16F9, 0x16FF), (0x1716, 0x171E), (0x1737, 0x173F), (0x1754, 0x175F),
  (0x176D, 0x176D), (0x1771, 0x1771), (0x1774, 0x177F), (0x17DE, 0x17DF), (0x17EA, 0x17EF),
  (0x17FA, 0x17FF), (0x181A, 0x181F), (0x1879, 0x187F), (0x18AB, 0x18AF), (0x18F6, 0x18FF),
  (0x191F, 0x191F), (0x192C, 0x192F), (0x193C, 0x193F), (0x1941, 0x1943), (0x196E, 0x196F),
  (0x1975, 0x197F), (0x19AC, 0x19AF), (0x19CA, 0x19CF), (0x19DB, 0x19DD), (0x1A1C, 0x1A1D),
  (0x1A5F, 0x1A5F), (0x1A7D, 0x1A7E), (0x1A8A, 0x1A8F), (0x1A9A, 0x1A9F), (0x1AAE, 0x1AAF),
  (0x1ADE, 0x1ADF), (0x1AEC, 0x1AFF), (0x1B4D, 0x1B4D), (0x1BF4, 0x1BFB), (0x1C38, 0x1C3A),
  (0x1C4A, 0x1C4C), (0x1C8B, 0x1C8F), (0x1CBB, 0x1CBC), (0x1CC8, 0x1CCF), (0x1CFB, 0x1CFF),
  (0x1F16, 0x1F17), (0x1F1E, 0x1F1F), (0x1F46, 0x1F47), (0x1F4E, 0x1F4F), (0x1F58, 0x1F58),
  (0x1F5A, 0x1F5A), (0x1F5C, 0x1F5C), (0x1F5E, 0x1F5E), (0x1F7E, 0x1F7F), (0x1FB5, 0x1FB5),
  (0x1FC5, 0x1FC5), (0x1FD4, 0x1FD5), (0x1FDC, 0x1FDC), (0x1FF0, 0x1FF1), (0x1FF5, 0x1FF5),
  (0x1FFF, 0x1FFF), (0x200E, 0x200F), (0x2024, 0x2026), (0x2028, 0x202E), (0x2065, 0x2069),
  (0x2072, 0x2073), (0x208F, 0x208F), (0x209D, 0x209F), (0x20C2, 0x20CF), (0x20F1, 0x20FF),
  (0x218C, 0x218F), (0x242A, 0x243F), (0x244B, 0x245F), (0x2488, 0x249B), (0x2B74, 0x2B75),
  (0x2CF4, 0x2CF8), (0x2D26, 0x2D26), (0x2D28, 0x2D2C), (0x2D2E, 0x2D2F), (0x2D68, 0x2D6E),
  (0x2D71, 0x2D7E), (0x2D97, 0x2D9F), (0x2DA7, 0x2DA7), (0x2DAF, 0x2DAF), (0x2DB7, 0x2DB7),
  (0x2DBF, 0x2DBF), (0x2DC7, 0x2DC7), (0x2DCF, 0x2DCF), (0x2DD7, 0x2DD7), (0x2DDF, 0x2DDF),
  (0x2E5E, 0x2E7F), (0x2E9A, 0x2E9A), (0x2EF4, 0x2EFF), (0x2FD6, 0x2FFF), (0x3040, 0x3040),
  (0x3097, 0x3098), (0x3100, 0x3104), (0x3130, 0x3130), (0x318F, 0x318F), (0x31E6, 0x31EF),
  (0x321F, 0x321F), (0x33C2, 0x33C2), (0x33C7, 0x33C7), (0x33D8, 0x33D8), (0xA48D, 0xA48F),
  (0xA4C7, 0xA4CF), (0xA62C, 0xA63F), (0xA6F8, 0xA6FF), (0xA7DD, 0xA7F0), (0xA82D, 0xA82F),
  (0xA83A, 0xA83F), (0xA878, 0xA87F), (0xA8C6, 0xA8CD), (0xA8DA, 0xA8DF), (0xA954, 0xA95E),
  (0xA97D, 0xA97F), (0xA9CE, 0xA9CE), (0xA9DA, 0xA9DD), (0xA9FF, 0xA9FF), (0xAA37, 0xAA3F),
  (0xAA4E, 0xAA4F), (0xAA5A, 0xAA5B), (0xAAC3, 0xAADA), (0xAAF7, 0xAB00), (0xAB07, 0xAB08),
  (0xAB0F, 0xAB10), (0xAB17, 0xAB1F), (0xAB27, 0xAB27), (0xAB2F, 0xAB2F), (0xAB6C, 0xAB6F),
  (0xABEE, 0xABEF), (0xABFA, 0xABFF), (0xD7A4, 0xD7AF), (0xD7C7, 0xD7CA), (0xD7FC, 0xF8FF),
  (0xFA6E, 0xFA6F), (0xFADA, 0xFAFF), (0xFB07, 0xFB12), (0xFB18, 0xFB1C), (0xFB37, 0xFB37),
  (0xFB3D, 0xFB3D), (0xFB3F, 0xFB3F), (0xFB42, 0xFB42), (0xFB45, 0xFB45), (0xFDD0, 0xFDEF),
  (0xFE12, 0xFE12), (0xFE19, 0xFE1F), (0xFE30, 0xFE30), (0xFE52, 0xFE53), (0xFE67, 0xFE67),
  (0xFE6C, 0xFE6F), (0xFE75, 0xFE75), (0xFEFD, 0xFEFE), (0xFF00, 0xFF00), (0xFFBF, 0xFFC1),
  (0xFFC8, 0xFFC9), (0xFFD0, 0xFFD1), (0xFFD8, 0xFFD9), (0xFFDD, 0xFFDF), (0xFFE7, 0xFFE7),
  (0xFFEF, 0xFFFF), (0x1000C, 0x1000C), (0x10027, 0x10027), (0x1003B, 0x1003B), (0x1003E, 0x1003E),
  (0x1004E, 0x1004F), (0x1005E, 0x1007F), (0x100FB, 0x100FF), (0x10103, 0x10106),
  (0x10134, 0x10136), (0x1018F, 0x1018F), (0x1019D, 0x1019F), (0x101A1, 0x101CF),
  (0x101FE, 0x1027F), (0x1029D, 0x1029F), (0x102D1, 0x102DF), (0x102FC, 0x102FF),
  (0x10324, 0x1032C), (0x1034B, 0x1034F), (0x1037B, 0x1037F), (0x1039E, 0x1039E),
  (0x103C4, 0x103C7), (0x103D6, 0x103FF), (0x1049E, 0x1049F), (0x104AA, 0x104AF),
  (0x104D4, 0x104D7), (0x104FC, 0x104FF), (0x10528, 0x1052F), (0x10564, 0x1056E),
  (0x1057B, 0x1057B), (0x1058B, 0x1058B), (0x10593, 0x10593), (0x10596, 0x10596),
  (0x105A2, 0x105A2), (0x105B2, 0x105B2), (0x105BA, 0x105BA), (0x105BD, 0x105BF),
  (0x105F4, 0x105FF), (0x10737, 0x1073F), (0x10756, 0x1075F), (0x10768, 0x1077F),
  (0x10786, 0x10786), (0x107B1, 0x107B1), (0x107BB, 0x107FF), (0x10806, 0x10807),
  (0x10809, 0x10809), (0x10836, 0x10836), (0x10839, 0x1083B), (0x1083D, 0x1083E),
  (0x10856, 0x10856), (0x1089F, 0x108A6), (0x108B0, 0x108DF), (0x108F3, 0x108F3),
  (0x108F6, 0x108FA), (0x1091C, 0x1091E), (0x1093A, 0x1093E), (0x1095A, 0x1097F),
  (0x109B8, 0x109BB), (0x109D0, 0x109D1), (0x10A04, 0x10A04), (0x10A07, 0x10A0B),
  (0x10A14, 0x10A14), (0x10A18, 0x10A18), (0x10A36, 0x10A37), (0x10A3B, 0x10A3E),
  (0x10A49, 0x10A4F), (0x10A59, 0x10A5F), (0x10AA0, 0x10ABF), (0x10AE7, 0x10AEA),
  (0x10AF7, 0x10AFF), (0x10B36, 0x10B38), (0x10B56, 0x10B57), (0x10B73, 0x10B77),
  (0x10B92, 0x10B98), (0x10B9D, 0x10BA8), (0x10BB0, 0x10BFF), (0x10C49, 0x10C7F),
  (0x10CB3, 0x10CBF), (0x10CF3, 0x10CF9), (0x10D28, 0x10D2F), (0x10D3A, 0x10D3F),
  (0x10D66, 0x10D68), (0x10D86, 0x10D8D), (0x10D90, 0x10E5F), (0x10E7F, 0x10E7F),
  (0x10EAA, 0x10EAA), (0x10EAE, 0x10EAF), (0x10EB2, 0x10EC1), (0x10EC8, 0x10ECF),
  (0x10ED9, 0x10EF9), (0x10F28, 0x10F2F), (0x10F5A, 0x10F6F), (0x10F8A, 0x10FAF),
  (0x10FCC, 0x10FDF), (0x10FF7, 0x10FFF), (0x1104E, 0x11051), (0x11076, 0x1107E),
  (0x110BD, 0x110BD), (0x110C3, 0x110CF), (0x110E9, 0x110EF), (0x110FA, 0x110FF),
  (0x11135, 0x11135), (0x11148, 0x1114F), (0x11177, 0x1117F), (0x111E0, 0x111E0),
  (0x111F5, 0x111FF), (0x11212, 0x11212), (0x11242, 0x1127F), (0x11287, 0x11287),
  (0x11289, 0x11289), (0x1128E, 0x1128E), (0x1129E, 0x1129E), (0x112AA, 0x112AF),
  (0x112EB, 0x112EF), (0x112FA, 0x112FF), (0x11304, 0x11304), (0x1130D, 0x1130E),
  (0x11311, 0x11312), (0x11329, 0x11329), (0x11331, 0x11331), (0x11334, 0x11334),
  (0x1133A, 0x1133A), (0x11345, 0x11346), (0x11349, 0x1134A), (0x1134E, 0x1134F),
  (0x11351, 0x11356), (0x11358, 0x1135C), (0x11364, 0x11365), (0x1136D, 0x1136F),
  (0x11375, 0x1137F), (0x1138A, 0x1138A), (0x1138C, 0x1138D), (0x1138F, 0x1138F),
  (0x113B6, 0x113B6), (0x113C1, 0x113C1), (0x113C3, 0x113C4), (0x113C6, 0x113C6),
  (0x113CB, 0x113CB), (0x113D6, 0x113D6), (0x113D9, 0x113E0), (0x113E3, 0x113FF),
  (0x1145C, 0x1145C), (0x11462, 0x1147F), (0x114C8, 0x114CF), (0x114DA, 0x1157F),
  (0x115B6, 0x115B7), (0x115DE, 0x115FF), (0x11645, 0x1164F), (0x1165A, 0x1165F),
  (0x1166D, 0x1167F), (0x116BA, 0x116BF), (0x116CA, 0x116CF), (0x116E4, 0x116FF),
  (0x1171B, 0x1171C), (0x1172C, 0x1172F), (0x11747, 0x117FF), (0x1183C, 0x1189F),
  (0x118F3, 0x118FE), (0x11907, 0x11908), (0x1190A, 0x1190B), (0x11914, 0x11914),
  (0x11917, 0x11917), (0x11936, 0x11936), (0x11939, 0x1193A), (0x11947, 0x1194F),
  (0x1195A, 0x1199F), (0x119A8, 0x119A9), (0x119D8, 0x119D9), (0x119E5, 0x119FF),
  (0x11A48, 0x11A4F), (0x11AA3, 0x11AAF), (0x11AF9, 0x11AFF), (0x11B0A, 0x11B5F),
  (0x11B68, 0x11BBF), (0x11BE2, 0x11BEF), (0x11BFA, 0x11BFF), (0x11C09, 0x11C09),
  (0x11C37, 0x11C37), (0x11C46, 0x11C4F), (0x11C6D, 0x11C6F), (0x11C90, 0x11C91),
  (0x11CA8, 0x11CA8), (0x11CB7, 0x11CFF), (0x11D07, 0x11D07), (0x11D0A, 0x11D0A),
  (0x11D37, 0x11D39), (0x11D3B, 0x11D3B), (0x11D3E, 0x11D3E), (0x11D48, 0x11D4F),
  (0x11D5A, 0x11D5F), (0x11D66, 0x11D66), (0x11D69, 0x11D69), (0x11D8F, 0x11D8F),
  (0x11D92, 0x11D92), (0x11D99, 0x11D9F), (0x11DAA, 0x11DAF), (0x11DDC, 0x11DDF),
  (0x11DEA, 0x11EDF), (0x11EF9, 0x11EFF), (0x11F11, 0x11F11), (0x11F3B, 0x11F3D),
  (0x11F5B, 0x11FAF), (0x11FB1, 0x11FBF), (0x11FF2, 0x11FFE), (0x1239A, 0x123FF),
  (0x1246F, 0x1246F), (0x12475, 0x1247F), (0x12544, 0x12F8F), (0x12FF3, 0x12FFF),
  (0x13430, 0x1343F), (0x13456, 0x1345F), (0x143FB, 0x143FF), (0x14647, 0x160FF),
  (0x1613A, 0x167FF), (0x16A39, 0x16A3F), (0x16A5F, 0x16A5F), (0x16A6A, 0x16A6D),
  (0x16ABF, 0x16ABF), (0x16ACA, 0x16ACF), (0x16AEE, 0x16AEF), (0x16AF6, 0x16AFF),
  (0x16B46, 0x16B4F), (0x16B5A, 0x16B5A), (0x16B62, 0x16B62), (0x16B78, 0x16B7C),
  (0x16B90, 0x16D3F), (0x16D7A, 0x16E3F), (0x16E9B, 0x16E9F), (0x16EB9, 0x16EBA),
  (0x16ED4, 0x16EFF), (0x16F4B, 0x16F4E), (0x16F88, 0x16F8E), (0x16FA0, 0x16FDF),
  (0x16FE5, 0x16FEF), (0x16FF7, 0x16FFF), (0x18CD6, 0x18CFE), (0x18D1F, 0x18D7F),
  (0x18DF3, 0x1AFEF), (0x1AFF4, 0x1AFF4), (0x1AFFC, 0x1AFFC), (0x1AFFF, 0x1AFFF),
  (0x1B123, 0x1B131), (0x1B133, 0x1B14F), (0x1B153, 0x1B154), (0x1B156, 0x1B163),
  (0x1B168, 0x1B16F), (0x1B2FC, 0x1BBFF), (0x1BC6B, 0x1BC6F), (0x1BC7D, 0x1BC7F),
  (0x1BC89, 0x1BC8F), (0x1BC9A, 0x1BC9B), (0x1BCA4, 0x1CBFF), (0x1CCFD, 0x1CCFF),
  (0x1CEB4, 0x1CEB9), (0x1CED1, 0x1CEDF), (0x1CEF1, 0x1CEFF), (0x1CF2E, 0x1CF2F),
  (0x1CF47, 0x1CF4F), (0x1CFC4, 0x1CFFF), (0x1D0F6, 0x1D0FF), (0x1D127, 0x1D128),
  (0x1D1EB, 0x1D1FF), (0x1D246, 0x1D2BF), (0x1D2D4, 0x1D2DF), (0x1D2F4, 0x1D2FF),
  (0x1D357, 0x1D35F), (0x1D379, 0x1D3FF), (0x1D455, 0x1D455), (0x1D49D, 0x1D49D),
  (0x1D4A0, 0x1D4A1), (0x1D4A3, 0x1D4A4), (0x1D4A7, 0x1D4A8), (0x1D4AD, 0x1D4AD),
  (0x1D4BA, 0x1D4BA), (0x1D4BC, 0x1D4BC), (0x1D4C4, 0x1D4C4), (0x1D506, 0x1D506),
  (0x1D50B, 0x1D50C), (0x1D515, 0x1D515), (0x1D51D, 0x1D51D), (0x1D53A, 0x1D53A),
  (0x1D53F, 0x1D53F), (0x1D545, 0x1D545), (0x1D547, 0x1D549), (0x1D551, 0x1D551),
  (0x1D6A6, 0x1D6A7), (0x1D7CC, 0x1D7CD), (0x1DA8C, 0x1DA9A), (0x1DAA0, 0x1DAA0),
  (0x1DAB0, 0x1DEFF), (0x1DF1F, 0x1DF24), (0x1DF2B, 0x1DFFF), (0x1E007, 0x1E007),
  (0x1E019, 0x1E01A), (0x1E022, 0x1E022), (0x1E025, 0x1E025), (0x1E02B, 0x1E02F),
  (0x1E06E, 0x1E08E), (0x1E090, 0x1E0FF), (0x1E12D, 0x1E12F), (0x1E13E, 0x1E13F),
  (0x1E14A, 0x1E14D), (0x1E150, 0x1E28F), (0x1E2AF, 0x1E2BF), (0x1E2FA, 0x1E2FE),
  (0x1E300, 0x1E4CF), (0x1E4FA, 0x1E5CF), (0x1E5FB, 0x1E5FE), (0x1E600, 0x1E6BF),
  (0x1E6DF, 0x1E6DF), (0x1E6F6, 0x1E6FD), (0x1E700, 0x1E7DF), (0x1E7E7, 0x1E7E7),
  (0x1E7EC, 0x1E7EC), (0x1E7EF, 0x1E7EF), (0x1E7FF, 0x1E7FF), (0x1E8C5, 0x1E8C6),
  (0x1E8D7, 0x1E8FF), (0x1E94C, 0x1E94F), (0x1E95A, 0x1E95D), (0x1E960, 0x1EC70),
  (0x1ECB5, 0x1ED00), (0x1ED3E, 0x1EDFF), (0x1EE04, 0x1EE04), (0x1EE20, 0x1EE20),
  (0x1EE23, 0x1EE23), (0x1EE25, 0x1EE26), (0x1EE28, 0x1EE28), (0x1EE33, 0x1EE33),
  (0x1EE38, 0x1EE38), (0x1EE3A, 0x1EE3A), (0x1EE3C, 0x1EE41), (0x1EE43, 0x1EE46),
  (0x1EE48, 0x1EE48), (0x1EE4A, 0x1EE4A), (0x1EE4C, 0x1EE4C), (0x1EE50, 0x1EE50),
  (0x1EE53, 0x1EE53), (0x1EE55, 0x1EE56), (0x1EE58, 0x1EE58), (0x1EE5A, 0x1EE5A),
  (0x1EE5C, 0x1EE5C), (0x1EE5E, 0x1EE5E), (0x1EE60, 0x1EE60), (0x1EE63, 0x1EE63),
  (0x1EE65, 0x1EE66), (0x1EE6B, 0x1EE6B), (0x1EE73, 0x1EE73), (0x1EE78, 0x1EE78),
  (0x1EE7D, 0x1EE7D), (0x1EE7F, 0x1EE7F), (0x1EE8A, 0x1EE8A), (0x1EE9C, 0x1EEA0),
  (0x1EEA4, 0x1EEA4), (0x1EEAA, 0x1EEAA), (0x1EEBC, 0x1EEEF), (0x1EEF2, 0x1EFFF),
  (0x1F02C, 0x1F02F), (0x1F094, 0x1F09F), (0x1F0AF, 0x1F0B0), (0x1F0C0, 0x1F0C0),
  (0x1F0D0, 0x1F0D0), (0x1F0F6, 0x1F100), (0x1F1AE, 0x1F1E5), (0x1F203, 0x1F20F),
  (0x1F23C, 0x1F23F), (0x1F249, 0x1F24F), (0x1F252, 0x1F25F), (0x1F266, 0x1F2FF),
  (0x1F6D9, 0x1F6DB), (0x1F6ED, 0x1F6EF), (0x1F6FD, 0x1F6FF), (0x1F7DA, 0x1F7DF),
  (0x1F7EC, 0x1F7EF), (0x1F7F1, 0x1F7FF), (0x1F80C, 0x1F80F), (0x1F848, 0x1F84F),
  (0x1F85A, 0x1F85F), (0x1F888, 0x1F88F), (0x1F8AE, 0x1F8AF), (0x1F8BC, 0x1F8BF),
  (0x1F8C2, 0x1F8CF), (0x1F8D9, 0x1F8FF), (0x1FA58, 0x1FA5F), (0x1FA6E, 0x1FA6F),
  (0x1FA7D, 0x1FA7F), (0x1FA8B, 0x1FA8D), (0x1FAC7, 0x1FAC7), (0x1FAC9, 0x1FACC),
  (0x1FADD, 0x1FADE), (0x1FAEB, 0x1FAEE), (0x1FAF9, 0x1FAFF), (0x1FB93, 0x1FB93),
  (0x1FBFB, 0x1FFFF), (0x2A6E0, 0x2A6FF), (0x2B81E, 0x2B81F), (0x2CEAE, 0x2CEAF),
  (0x2EBE1, 0x2EBEF), (0x2EE5E, 0x2F7FF), (0x2FA1E, 0x2FFFF), (0x3134B, 0x3134F),
  (0x3347A, 0xE00FF), (0xE01F0, 0x10FFFF)]

/-- The characters that vanish. -/
def ignored : List (Nat × Nat) := [
  (0xAD, 0xAD), (0x34F, 0x34F), (0x115F, 0x1160), (0x17B4, 0x17B5), (0x180B, 0x180F),
  (0x200B, 0x200B), (0x2060, 0x2064), (0x206A, 0x206F), (0x3164, 0x3164), (0xFE00, 0xFE0F),
  (0xFEFF, 0xFEFF), (0xFFA0, 0xFFA0), (0x1BCA0, 0x1BCA3), (0x1D173, 0x1D17A), (0xE0100, 0xE01EF)]

/-- Ranges whose images are a range too, with the first image. -/
def shifted : List (Nat × Nat × Nat) := [
  (0x41, 0x5A, 0x61), (0x391, 0x3A1, 0x3B1), (0x3A3, 0x3A9, 0x3C3), (0x408, 0x40B, 0x458),
  (0x410, 0x418, 0x430), (0x41A, 0x42F, 0x43A), (0x531, 0x556, 0x561), (0x10A0, 0x10C5, 0x2D00),
  (0x13F8, 0x13FD, 0x13F0), (0x1C90, 0x1CBA, 0x10D0), (0x1D33, 0x1D3A, 0x67),
  (0x1DAE, 0x1DB1, 0x272), (0x2074, 0x2079, 0x34), (0x2080, 0x2089, 0x30), (0x2096, 0x2099, 0x6B),
  (0x2135, 0x2138, 0x5D0), (0x2460, 0x2468, 0x31), (0x24B6, 0x24CF, 0x61), (0x24D0, 0x24E9, 0x61),
  (0x2C00, 0x2C2F, 0x2C30), (0x313A, 0x313F, 0x11B0), (0x3145, 0x314E, 0x1109),
  (0x314F, 0x3163, 0x1161), (0x3178, 0x317C, 0x112B), (0x3269, 0x326D, 0x110E),
  (0x32E4, 0x32E9, 0x30CA), (0x32EE, 0x32F2, 0x30DE), (0x32F5, 0x32FA, 0x30E8),
  (0x32FB, 0x32FE, 0x30EF), (0xAB70, 0xABBF, 0x13A0), (0xFE41, 0xFE44, 0x300C),
  (0xFF01, 0xFF20, 0x21), (0xFF21, 0xFF3A, 0x61), (0xFF3B, 0xFF5E, 0x5B), (0xFF85, 0xFF8A, 0x30CA),
  (0xFF8F, 0xFF93, 0x30DE), (0xFF96, 0xFF9B, 0x30E8), (0xFFAA, 0xFFAF, 0x11B0),
  (0xFFB5, 0xFFBE, 0x1109), (0xFFC2, 0xFFC7, 0x1161), (0xFFCA, 0xFFCF, 0x1167),
  (0xFFD2, 0xFFD7, 0x116D), (0xFFE9, 0xFFEC, 0x2190), (0x10400, 0x10427, 0x10428),
  (0x104B0, 0x104D3, 0x104D8), (0x10570, 0x1057A, 0x10597), (0x1057C, 0x1058A, 0x105A3),
  (0x1058C, 0x10592, 0x105B3), (0x10C80, 0x10CB2, 0x10CC0), (0x10D50, 0x10D65, 0x10D70),
  (0x118A0, 0x118BF, 0x118C0), (0x16E40, 0x16E5F, 0x16E60), (0x16EA0, 0x16EB8, 0x16EBB),
  (0x1CCD6, 0x1CCEF, 0x61), (0x1CCF0, 0x1CCF9, 0x30), (0x1D400, 0x1D419, 0x61),
  (0x1D41A, 0x1D433, 0x61), (0x1D434, 0x1D44D, 0x61), (0x1D44E, 0x1D454, 0x61),
  (0x1D456, 0x1D467, 0x69), (0x1D468, 0x1D481, 0x61), (0x1D482, 0x1D49B, 0x61),
  (0x1D4A9, 0x1D4AC, 0x6E), (0x1D4AE, 0x1D4B5, 0x73), (0x1D4B6, 0x1D4B9, 0x61),
  (0x1D4BD, 0x1D4C3, 0x68), (0x1D4C5, 0x1D4CF, 0x70), (0x1D4D0, 0x1D4E9, 0x61),
  (0x1D4EA, 0x1D503, 0x61), (0x1D507, 0x1D50A, 0x64), (0x1D50D, 0x1D514, 0x6A),
  (0x1D516, 0x1D51C, 0x73), (0x1D51E, 0x1D537, 0x61), (0x1D53B, 0x1D53E, 0x64),
  (0x1D540, 0x1D544, 0x69), (0x1D54A, 0x1D550, 0x73), (0x1D552, 0x1D56B, 0x61),
  (0x1D56C, 0x1D585, 0x61), (0x1D586, 0x1D59F, 0x61), (0x1D5A0, 0x1D5B9, 0x61),
  (0x1D5BA, 0x1D5D3, 0x61), (0x1D5D4, 0x1D5ED, 0x61), (0x1D5EE, 0x1D607, 0x61),
  (0x1D608, 0x1D621, 0x61), (0x1D622, 0x1D63B, 0x61), (0x1D63C, 0x1D655, 0x61),
  (0x1D656, 0x1D66F, 0x61), (0x1D670, 0x1D689, 0x61), (0x1D68A, 0x1D6A3, 0x61),
  (0x1D6A8, 0x1D6B8, 0x3B1), (0x1D6BA, 0x1D6C0, 0x3C3), (0x1D6C2, 0x1D6D2, 0x3B1),
  (0x1D6D4, 0x1D6DA, 0x3C3), (0x1D6E2, 0x1D6F2, 0x3B1), (0x1D6F4, 0x1D6FA, 0x3C3),
  (0x1D6FC, 0x1D70C, 0x3B1), (0x1D70E, 0x1D714, 0x3C3), (0x1D71C, 0x1D72C, 0x3B1),
  (0x1D72E, 0x1D734, 0x3C3), (0x1D736, 0x1D746, 0x3B1), (0x1D748, 0x1D74E, 0x3C3),
  (0x1D756, 0x1D766, 0x3B1), (0x1D768, 0x1D76E, 0x3C3), (0x1D770, 0x1D780, 0x3B1),
  (0x1D782, 0x1D788, 0x3C3), (0x1D790, 0x1D7A0, 0x3B1), (0x1D7A2, 0x1D7A8, 0x3C3),
  (0x1D7AA, 0x1D7BA, 0x3B1), (0x1D7BC, 0x1D7C2, 0x3C3), (0x1D7CE, 0x1D7D7, 0x30),
  (0x1D7D8, 0x1D7E1, 0x30), (0x1D7E2, 0x1D7EB, 0x30), (0x1D7EC, 0x1D7F5, 0x30),
  (0x1D7F6, 0x1D7FF, 0x30), (0x1E030, 0x1E038, 0x430), (0x1E03C, 0x1E046, 0x43E),
  (0x1E051, 0x1E059, 0x430), (0x1E05F, 0x1E064, 0x443), (0x1E900, 0x1E921, 0x1E922),
  (0x1EE0A, 0x1EE0D, 0x643), (0x1EE2A, 0x1EE2D, 0x643), (0x1F130, 0x1F149, 0x61),
  (0x1FBF0, 0x1FBF9, 0x30)]

/-- Ranges in which every second character, from the first on, is replaced by the next one. -/
def alternating : List (Nat × Nat) := [
  (0x246, 0x24E), (0x3D8, 0x3EE), (0x460, 0x474), (0x478, 0x480), (0x48A, 0x4BE), (0x4C3, 0x4CD),
  (0x4FA, 0x52E), (0x1EFA, 0x1EFE), (0x2C67, 0x2C6B), (0x2C80, 0x2CE2), (0xA640, 0xA66C),
  (0xA680, 0xA69A), (0xA722, 0xA72E), (0xA732, 0xA76E), (0xA77E, 0xA786), (0xA796, 0xA7A8),
  (0xA7B4, 0xA7C2), (0xA7CC, 0xA7DA)]

/-- The other images, in runs. -/
def imageRuns : List (Nat × String) := [
  (0xA0, "\x20"), (0xA8, "\x20\u0308"), (0xAA, "a"), (0xAF, "\x20\u0304"),
  (0xB2, "2|3|\x20\u0301|μ"), (0xB8, "\x20\u0327|1|o"), (0xBC, "1\u20444|1\u20442|3\u20444"),
  (0xC6, "æ"), (0xD0, "ð"), (0xD8, "ø"), (0xDE, "þ"), (0x110, "đ"), (0x126, "ħ"), (0x132, "ij|ij"),
  (0x13F, "l\u00B7|l\u00B7|ł"), (0x149, "\u02BCn|ŋ"), (0x152, "œ"), (0x166, "ŧ"), (0x17F, "s"),
  (0x181, "ɓ|ƃ"), (0x184, "ƅ"), (0x186, "ɔ|ƈ"), (0x189, "ɖ|ɗ|ƌ"), (0x18E, "ǝ|ə|ɛ|ƒ"),
  (0x193, "ɠ|ɣ"), (0x196, "ɩ|ɨ|ƙ"), (0x19C, "ɯ|ɲ"), (0x19F, "ɵ"), (0x1A2, "ƣ"), (0x1A4, "ƥ"),
  (0x1A6, "ʀ|ƨ"), (0x1A9, "ʃ"), (0x1AC, "ƭ"), (0x1AE, "ʈ"), (0x1B1, "ʊ|ʋ|ƴ"), (0x1B5, "ƶ"),
  (0x1B7, "ʒ|ƹ"), (0x1BC, "ƽ"), (0x1C4, "d\u017E|d\u017E|d\u017E|lj|lj|lj|nj|nj|nj"), (0x1E4, "ǥ"),
  (0x1F1, "dz|dz|dz"), (0x1F6, "ƕ|ƿ"), (0x21C, "ȝ"), (0x220, "ƞ"), (0x222, "ȣ"), (0x224, "ȥ"),
  (0x23A, "ⱥ|ȼ"), (0x23D, "ƚ|ⱦ"), (0x241, "ɂ"), (0x243, "ƀ|ʉ|ʌ"), (0x2B0, "h|ɦ|j|r|ɹ|ɻ|ʁ|w|y"),
  (0x2D8, "\x20\u0306|\x20\u0307|\x20\u030A|\x20\u0328|\x20\u0303|\x20\u030B"),
  (0x2E0, "ɣ|l|s|x|ʕ"), (0x345, "ι"), (0x370, "ͱ"), (0x372, "ͳ"), (0x376, "ͷ"), (0x37A, "\x20ι"),
  (0x37F, "ϳ"), (0x384, "\x20\u0301"), (0x3CF, "ϗ|β|θ|υ"), (0x3D5, "φ|π"), (0x3F0, "κ|ρ|σ"),
  (0x3F4, "θ|ε"), (0x3F7, "ϸ"), (0x3F9, "σ|ϻ"), (0x3FD, "ͻ|ͼ|ͽ"), (0x402, "ђ"), (0x404, "є|ѕ|і"),
  (0x40F, "џ"), (0x4C0, "ӏ"), (0x4D4, "ӕ"), (0x4D8, "ә"), (0x4E0, "ӡ"), (0x4E8, "ө"), (0x4F6, "ӷ"),
  (0x587, "եւ"), (0x675, "\u0627\u0674|\u0648\u0674|\u06C7\u0674|\u064A\u0674"),
  (0xE33, "\u0E4D\u0E32"), (0xEB3, "\u0ECD\u0EB2"), (0xEDC, "\u0EAB\u0E99|\u0EAB\u0EA1"),
  (0xF0C, "\u0F0B"), (0xF77, "\u0FB2\u0F71\u0F80"), (0xF79, "\u0FB3\u0F71\u0F80"), (0x10C7, "ⴧ"),
  (0x10CD, "ⴭ"), (0x10FC, "\u10DC"), (0x1C80, "в|д|о|с|т|т|ъ|ѣ|ꙋ|ᲊ"),
  (0x1CBD, "\u10FD|\u10FE|\u10FF"), (0x1D2C, "a|æ|b"), (0x1D30, "d|e|ǝ"),
  (0x1D3C, "o|ȣ|p|r|t|u|w|a|ɐ|ɑ|ᴂ|b|d|e|ə|ɛ|ɜ|g"),
  (0x1D4F, "k|m|ŋ|o|ɔ|ᴖ|ᴗ|p|t|u|ᴝ|ɯ|v|ᴥ|β|γ|δ|φ|χ|i|r|u|v|β|γ|ρ|φ|χ"), (0x1D78, "н"),
  (0x1D9B, "ɒ|c|ɕ|ð|ɜ|f|ɟ|ɡ|ɥ|ɨ|ɩ|ɪ|ᵻ|ʝ|ɭ|ᶅ|ʟ|ɱ|ɰ"), (0x1DB2, "ɸ|ʂ|ʃ|ƫ|ʉ|ʊ|ᴜ|ʋ|ʌ|z|ʐ|ʑ|ʒ|θ"),
  (0x1E9A, "a\u02BE"), (0x1E9E, "ß"), (0x1FBD, "\x20\u0313"), (0x1FBF, "\x20\u0313|\x20\u0342"),
  (0x1FFE, "\x20\u0314"), (0x2002, "\x20|\x20|\x20|\x20|\x20|\x20|\x20|\x20|\x20"),
  (0x2011, "\u2010"), (0x2017, "\x20\u0333"), (0x202F, "\x20"),
  (0x2033, "\u2032\u2032|\u2032\u2032\u2032"), (0x2036, "\u2035\u2035|\u2035\u2035\u2035"),
  (0x203C, "!!"), (0x203E, "\x20\u0305"), (0x2047, "??|?!|!?"),
  (0x2057, "\u2032\u2032\u2032\u2032"), (0x205F, "\x20"), (0x2070, "0|i"),
  (0x207A, "+|\u2212|=|(|)|n"), (0x208A, "+|\u2212|=|(|)"), (0x2090, "a|e|o|x|ə|h"),
  (0x209A, "p|s|t"), (0x20A8, "rs"), (0x2100, "a/c|a/s|c|\u00B0c"), (0x2105, "c/o|c/u|ɛ"),
  (0x2109, "\u00B0f|g|h|h|h|h|ħ|i|i|l|l"), (0x2115, "n|no"), (0x2119, "p|q|r|r|r"),
  (0x2120, "sm|tel|tm"), (0x2124, "z"), (0x2128, "z"), (0x212C, "b|c"), (0x212F, "e|e|f|ⅎ|m|o"),
  (0x2139, "i"), (0x213B, "fax|π|γ|γ|π|\u2211"), (0x2145, "d|d|e|i|j"),
  (0x2150, "1\u20447|1\u20449|1\u204410|1\u20443|2\u20443|1\u20445|2\u20445|3\u20445|4\u20445"),
  (0x2159, "1\u20446|5\u20446|1\u20448|3\u20448|5\u20448|7\u20448|1\u2044|i|ii|iii|iv|v|vi|vii"),
  (0x2167, "viii|ix|x|xi|xii|l|c|d|m|i|ii|iii|iv|v|vi|vii|viii|ix|x|xi|xii|l|c|d|m"), (0x2183, "ↄ"),
  (0x2189, "0\u20443"), (0x222C, "\u222B\u222B|\u222B\u222B\u222B"),
  (0x222F, "\u222E\u222E|\u222E\u222E\u222E"),
  (0x2469, "10|11|12|13|14|15|16|17|18|19|20|(1)|(2)|(3)|(4)|(5)|(6)|(7)|(8)|(9)|(10)|(11)|(12)"),
  (0x2480, "(13)|(14)|(15)|(16)|(17)|(18)|(19)|(20)"),
  (0x249C, "(a)|(b)|(c)|(d)|(e)|(f)|(g)|(h)|(i)|(j)|(k)|(l)|(m)|(n)|(o)|(p)|(q)|(r)|(s)|(t)|(u)"),
  (0x24B1, "(v)|(w)|(x)|(y)|(z)"), (0x24EA, "0"), (0x2A0C, "\u222B\u222B\u222B\u222B"),
  (0x2A74, "::=|==|==="), (0x2C60, "ⱡ"), (0x2C62, "ɫ|ᵽ|ɽ"), (0x2C6D, "ɑ|ɱ|ɐ|ɒ"), (0x2C72, "ⱳ"),
  (0x2C75, "ⱶ"), (0x2C7C, "j|v|ȿ|ɀ"), (0x2CEB, "ⳬ"), (0x2CED, "ⳮ"), (0x2CF2, "ⳳ"), (0x2D6F, "ⵡ"),
  (0x2E9F, "母"), (0x2EF3, "龟"),
  (0x2F00, "一|丨|丶|丿|乙|亅|二|亠|人|儿|入|八|冂|冖|冫|几|凵|刀|力|勹|匕|匚|匸|十|卜|卩|厂|厶|又|口|囗|土|士|夂|夊|夕|大|女|子|宀|寸|小|尢"),
  (0x2F2B, "尸|屮|山|巛|工|己|巾|干|幺|广|廴|廾|弋|弓|彐|彡|彳|心|戈|戶|手|支|攴|文|斗|斤|方|无|日|曰|月|木|欠|止|歹|殳|毋|比|毛|氏|气|水|火"),
  (0x2F56, "爪|父|爻|爿|片|牙|牛|犬|玄|玉|瓜|瓦|甘|生|用|田|疋|疒|癶|白|皮|皿|目|矛|矢|石|示|禸|禾|穴|立|竹|米|糸|缶|网|羊|羽|老|而|耒|耳|聿"),
  (0x2F81, "肉|臣|自|至|臼|舌|舛|舟|艮|色|艸|虍|虫|血|行|衣|襾|見|角|言|谷|豆|豕|豸|貝|赤|走|足|身|車|辛|辰|辵|邑|酉|釆|里|金|長|門|阜|隶|隹"),
  (0x2FAC, "雨|靑|非|面|革|韋|韭|音|頁|風|飛|食|首|香|馬|骨|高|髟|鬥|鬯|鬲|鬼|魚|鳥|鹵|鹿|麥|麻|黃|黍|黑|黹|黽|鼎|鼓|鼠|鼻|齊|齒|龍|龜|龠"),
  (0x3000, "\x20"), (0x3002, "."), (0x3036, "\u3012"), (0x3038, "十|卄|卅"),
  (0x309B, "\x20\u3099|\x20\u309A"), (0x309F, "より"), (0x30FF, "コト"),
  (0x3131, "\u1100|\u1101|\u11AA|\u1102|\u11AC|\u11AD|\u1103|\u1104|\u1105"),
  (0x3140, "\u111A|\u1106|\u1107|\u1108|\u1121"),
  (0x3165, "\u1114|\u1115|\u11C7|\u11C8|\u11CC|\u11CE|\u11D3|\u11D7|\u11D9|\u111C|\u11DD|\u11DF"),
  (0x3171, "\u111D|\u111E|\u1120|\u1122|\u1123|\u1127|\u1129"),
  (0x317D, "\u1132|\u1136|\u1140|\u1147|\u114C|\u11F1|\u11F2|\u1157|\u1158|\u1159|\u1184|\u1185"),
  (0x3189, "\u1188|\u1191|\u1192|\u1194|\u119E|\u11A1"), (0x3192, "一|二|三|四|上|中|下|甲|乙|丙|丁|天|地|人"),
  (0x3200, "(\u1100)|(\u1102)|(\u1103)|(\u1105)|(\u1106)|(\u1107)|(\u1109)|(\u110B)|(\u110C)"),
  (0x3209, "(\u110E)|(\u110F)|(\u1110)|(\u1111)|(\u1112)|(\uAC00)|(\uB098)|(\uB2E4)|(\uB77C)"),
  (0x3212, "(\uB9C8)|(\uBC14)|(\uC0AC)|(\uC544)|(\uC790)|(\uCC28)|(\uCE74)|(\uD0C0)|(\uD30C)"),
  (0x321B, "(\uD558)|(\uC8FC)|(\uC624\uC804)|(\uC624\uD6C4)"),
  (0x3220, "(一)|(二)|(三)|(四)|(五)|(六)|(七)|(八)|(九)|(十)|(月)|(火)|(水)|(木)|(金)|(土)|(日)|(株)|(有)|(社)|(名)"),
  (0x3235, "(特)|(財)|(祝)|(労)|(代)|(呼)|(学)|(監)|(企)|(資)|(協)|(祭)|(休)|(自)|(至)|問|幼|文|箏"),
  (0x3250, "pte|21|22|23|24|25|26|27|28|29|30|31|32|33|34|35|\u1100|\u1102|\u1103|\u1105|\u1106"),
  (0x3265, "\u1107|\u1109|\u110B|\u110C"),
  (0x326E, "\uAC00|\uB098|\uB2E4|\uB77C|\uB9C8|\uBC14|\uC0AC|\uC544|\uC790|\uCC28|\uCE74|\uD0C0"),
  (0x327A, "\uD30C|\uD558|\uCC38\uACE0|\uC8FC\uC758|\uC6B0"),
  (0x3280, "一|二|三|四|五|六|七|八|九|十|月|火|水|木|金|土|日|株|有|社|名|特|財|祝|労|秘|男|女|適|優|印|注|項|休|写|正|上|中|下|左|右|医|宗"),
  (0x32AB, "学|監|企|資|協|夜|36|37|38|39|40|41|42|43|44|45|46|47|48|49|50|1月|2月|3月|4月|5月|6月|7月|8月|9月"),
  (0x32C9, "10月|11月|12月|hg|erg|ev|ltd|ア|イ|ウ|エ|オ|カ|キ|ク|ケ|コ|サ|シ|ス|セ|ソ|タ|チ|ツ|テ|ト"),
  (0x32EA, "ヒ|フ|ヘ|ホ"), (0x32F3, "ヤ|ユ"),
  (0x32FF, "令和|ア\u30D1\u30FCト|アルファ|アン\u30DAア|ア\u30FCル|イニン\u30B0|インチ|ウォン|エスク\u30FC\u30C9"),
  (0x3308, "エ\u30FCカ\u30FC|オンス|オ\u30FCム|カイリ|カラット|カロリ\u30FC|\u30ACロン|\u30ACンマ|\u30AE\u30AC"),
  (0x3311, "\u30AEニ\u30FC|キュリ\u30FC|\u30AEル\u30C0\u30FC|キロ|キロ\u30B0ラム|キロメ\u30FCトル|キロワット|\u30B0ラム"),
  (0x3319, "\u30B0ラムトン|クル\u30BCイロ|クロ\u30FCネ|ケ\u30FCス|コルナ|コ\u30FC\u30DD|サイクル|サンチ\u30FCム|シリン\u30B0"),
  (0x3322, "センチ|セント|\u30C0\u30FCス|\u30C7シ|\u30C9ル|トン|ナノ|ノット|ハイツ|\u30D1\u30FCセント|\u30D1\u30FCツ"),
  (0x332D, "\u30D0\u30FCレル|\u30D4アストル|\u30D4クル|\u30D4コ|\u30D3ル|ファラッ\u30C9|フィ\u30FCト|\u30D6ッシェル"),
  (0x3335, "フラン|ヘクタ\u30FCル|\u30DAソ|\u30DAニヒ|ヘルツ|\u30DAンス|\u30DA\u30FC\u30B8|\u30D9\u30FCタ"),
  (0x333D, "\u30DDイント|\u30DCルト|ホン|\u30DDン\u30C9|ホ\u30FCル|ホ\u30FCン|マイクロ|マイル|マッハ|マルク|マンション|ミクロン|ミリ"),
  (0x334A, "ミリ\u30D0\u30FCル|メ\u30AC|メ\u30ACトン|メ\u30FCトル|ヤ\u30FC\u30C9|ヤ\u30FCル|ユアン|リットル|リラ"),
  (0x3353, "ル\u30D4\u30FC|ル\u30FC\u30D6ル|レム|レント\u30B2ン|ワット|0点|1点|2点|3点|4点|5点|6点|7点|8点|9点|10点|11点"),
  (0x3364, "12点|13点|14点|15点|16点|17点|18点|19点|20点|21点|22点|23点|24点|hpa|da|au|bar|ov|pc|dm|dm2|dm3|iu"),
  (0x337B, "平成|昭和|大正|明治|株式会社|pa|na|μa|ma|ka|kb|mb|gb|cal|kcal|pf|nf|μf|μg|mg|kg|hz|khz|mhz|ghz"),
  (0x3394, "thz|μl|ml|dl|kl|fm|nm|μm|mm|cm|km|mm2|cm2|m2|km2|mm3|cm3|m3|km3|m\u2215s|m\u2215s2|pa"),
  (0x33AA, "kpa|mpa|gpa|rad|rad\u2215s|rad\u2215s2|ps|ns|μs|ms|pv|nv|μv|mv|kv|mv|pw|nw|μw|mw|kw"),
  (0x33BF, "mw|kω|mω"), (0x33C3, "bq|cc|cd|c\u2215kg"),
  (0x33C8, "db|gy|ha|hp|in|kk|km|kt|lm|ln|log|lx|mb|mil|mol|ph"),
  (0x33D9, "ppm|pr|sr|sv|wb|v\u2215m|a\u2215m|1日|2日|3日|4日|5日|6日|7日|8日|9日|10日|11日|12日|13日|14日|15日"),
  (0x33EF, "16日|17日|18日|19日|20日|21日|22日|23日|24日|25日|26日|27日|28日|29日|30日|31日|gal"), (0xA69C, "ъ|ь"),
  (0xA770, "ꝯ"), (0xA779, "ꝺ"), (0xA77B, "ꝼ"), (0xA77D, "ᵹ"), (0xA78B, "ꞌ"), (0xA78D, "ɥ"),
  (0xA790, "ꞑ"), (0xA792, "ꞓ"), (0xA7AA, "ɦ|ɜ|ɡ|ɬ|ɪ"), (0xA7B0, "ʞ|ʇ|ʝ|ꭓ"), (0xA7C4, "ꞔ|ʂ|ᶎ|ꟈ"),
  (0xA7C9, "ꟊ"), (0xA7CB, "ɤ"), (0xA7DC, "ƛ"), (0xA7F1, "s|c|f|q|ꟶ"), (0xA7F8, "ħ|œ"),
  (0xAB5C, "ꜧ|ꬷ|ɫ|ꭒ"), (0xAB69, "ʍ"), (0xFB00, "ff|fi|fl|ffi|ffl|st|st"),
  (0xFB13, "մն|մե|մի|վն|մխ"),
  (0xFB20, "\u05E2|\u05D0|\u05D3|\u05D4|\u05DB|\u05DC|\u05DD|\u05E8|\u05EA|+"),
  (0xFB4F, "\u05D0\u05DC|\u0671|\u0671|\u067B|\u067B|\u067B|\u067B|\u067E|\u067E|\u067E|\u067E"),
  (0xFB5A, "\u0680|\u0680|\u0680|\u0680|\u067A|\u067A|\u067A|\u067A|\u067F|\u067F|\u067F|\u067F"),
  (0xFB66, "\u0679|\u0679|\u0679|\u0679|\u06A4|\u06A4|\u06A4|\u06A4|\u06A6|\u06A6|\u06A6|\u06A6"),
  (0xFB72, "\u0684|\u0684|\u0684|\u0684|\u0683|\u0683|\u0683|\u0683|\u0686|\u0686|\u0686|\u0686"),
  (0xFB7E, "\u0687|\u0687|\u0687|\u0687|\u068D|\u068D|\u068C|\u068C|\u068E|\u068E|\u0688|\u0688"),
  (0xFB8A, "\u0698|\u0698|\u0691|\u0691|\u06A9|\u06A9|\u06A9|\u06A9|\u06AF|\u06AF|\u06AF|\u06AF"),
  (0xFB96, "\u06B3|\u06B3|\u06B3|\u06B3|\u06B1|\u06B1|\u06B1|\u06B1|\u06BA|\u06BA|\u06BB|\u06BB"),
  (0xFBA2, "\u06BB|\u06BB|\u06C0|\u06C0|\u06C1|\u06C1|\u06C1|\u06C1|\u06BE|\u06BE|\u06BE|\u06BE"),
  (0xFBAE, "\u06D2|\u06D2|\u06D3|\u06D3"),
  (0xFBD3, "\u06AD|\u06AD|\u06AD|\u06AD|\u06C7|\u06C7|\u06C6|\u06C6|\u06C8|\u06C8|\u06C7\u0674"),
  (0xFBDE, "\u06CB|\u06CB|\u06C5|\u06C5|\u06C9|\u06C9|\u06D0|\u06D0|\u06D0|\u06D0|\u0649|\u0649"),
  (0xFBEA, "\u0626\u0627|\u0626\u0627|\u0626\u06D5|\u0626\u06D5|\u0626\u0648|\u0626\u0648"),
  (0xFBF0, "\u0626\u06C7|\u0626\u06C7|\u0626\u06C6|\u0626\u06C6|\u0626\u06C8|\u0626\u06C8"),
  (0xFBF6, "\u0626\u06D0|\u0626\u06D0|\u0626\u06D0|\u0626\u0649|\u0626\u0649|\u0626\u0649|\u06CC"),
  (0xFBFD, "\u06CC|\u06CC|\u06CC|\u0626\u062C|\u0626\u062D|\u0626\u0645|\u0626\u0649|\u0626\u064A"),
  (0xFC05, "\u0628\u062C|\u0628\u062D|\u0628\u062E|\u0628\u0645|\u0628\u0649|\u0628\u064A"),
  (0xFC0B, "\u062A\u062C|\u062A\u062D|\u062A\u062E|\u062A\u0645|\u062A\u0649|\u062A\u064A"),
  (0xFC11, "\u062B\u062C|\u062B\u0645|\u062B\u0649|\u062B\u064A|\u062C\u062D|\u062C\u0645"),
  (0xFC17, "\u062D\u062C|\u062D\u0645|\u062E\u062C|\u062E\u062D|\u062E\u0645|\u0633\u062C"),
  (0xFC1D, "\u0633\u062D|\u0633\u062E|\u0633\u0645|\u0635\u062D|\u0635\u0645|\u0636\u062C"),
  (0xFC23, "\u0636\u062D|\u0636\u062E|\u0636\u0645|\u0637\u062D|\u0637\u0645|\u0638\u0645"),
  (0xFC29, "\u0639\u062C|\u0639\u0645|\u063A\u062C|\u063A\u0645|\u0641\u062C|\u0641\u062D"),
  (0xFC2F, "\u0641\u062E|\u0641\u0645|\u0641\u0649|\u0641\u064A|\u0642\u062D|\u0642\u0645"),
  (0xFC35, "\u0642\u0649|\u0642\u064A|\u0643\u0627|\u0643\u062C|\u0643\u062D|\u0643\u062E"),
  (0xFC3B, "\u0643\u0644|\u0643\u0645|\u0643\u0649|\u0643\u064A|\u0644\u062C|\u0644\u062D"),
  (0xFC41, "\u0644\u062E|\u0644\u0645|\u0644\u0649|\u0644\u064A|\u0645\u062C|\u0645\u062D"),
  (0xFC47, "\u0645\u062E|\u0645\u0645|\u0645\u0649|\u0645\u064A|\u0646\u062C|\u0646\u062D"),
  (0xFC4D, "\u0646\u062E|\u0646\u0645|\u0646\u0649|\u0646\u064A|\u0647\u062C|\u0647\u0645"),
  (0xFC53, "\u0647\u0649|\u0647\u064A|\u064A\u062C|\u064A\u062D|\u064A\u062E|\u064A\u0645"),
  (0xFC59, "\u064A\u0649|\u064A\u064A|\u0630\u0670|\u0631\u0670|\u0649\u0670|\x20\u064C\u0651"),
  (0xFC5F, "\x20\u064D\u0651|\x20\u064E\u0651|\x20\u064F\u0651|\x20\u0650\u0651|\x20\u0651\u0670"),
  (0xFC64, "\u0626\u0631|\u0626\u0632|\u0626\u0645|\u0626\u0646|\u0626\u0649|\u0626\u064A"),
  (0xFC6A, "\u0628\u0631|\u0628\u0632|\u0628\u0645|\u0628\u0646|\u0628\u0649|\u0628\u064A"),
  (0xFC70, "\u062A\u0631|\u062A\u0632|\u062A\u0645|\u062A\u0646|\u062A\u0649|\u062A\u064A"),
  (0xFC76, "\u062B\u0631|\u062B\u0632|\u062B\u0645|\u062B\u0646|\u062B\u0649|\u062B\u064A"),
  (0xFC7C, "\u0641\u0649|\u0641\u064A|\u0642\u0649|\u0642\u064A|\u0643\u0627|\u0643\u0644"),
  (0xFC82, "\u0643\u0645|\u0643\u0649|\u0643\u064A|\u0644\u0645|\u0644\u0649|\u0644\u064A"),
  (0xFC88, "\u0645\u0627|\u0645\u0645|\u0646\u0631|\u0646\u0632|\u0646\u0645|\u0646\u0646"),
  (0xFC8E, "\u0646\u0649|\u0646\u064A|\u0649\u0670|\u064A\u0631|\u064A\u0632|\u064A\u0645"),
  (0xFC94, "\u064A\u0646|\u064A\u0649|\u064A\u064A|\u0626\u062C|\u0626\u062D|\u0626\u062E"),
  (0xFC9A, "\u0626\u0645|\u0626\u0647|\u0628\u062C|\u0628\u062D|\u0628\u062E|\u0628\u0645"),
  (0xFCA0, "\u0628\u0647|\u062A\u062C|\u062A\u062D|\u062A\u062E|\u062A\u0645|\u062A\u0647"),
  (0xFCA6, "\u062B\u0645|\u062C\u062D|\u062C\u0645|\u062D\u062C|\u062D\u0645|\u062E\u062C"),
  (0xFCAC, "\u062E\u0645|\u0633\u062C|\u0633\u062D|\u0633\u062E|\u0633\u0645|\u0635\u062D"),
  (0xFCB2, "\u0635\u062E|\u0635\u0645|\u0636\u062C|\u0636\u062D|\u0636\u062E|\u0636\u0645"),
  (0xFCB8, "\u0637\u062D|\u0638\u0645|\u0639\u062C|\u0639\u0645|\u063A\u062C|\u063A\u0645"),
  (0xFCBE, "\u0641\u062C|\u0641\u062D|\u0641\u062E|\u0641\u0645|\u0642\u062D|\u0642\u0645"),
  (0xFCC4, "\u0643\u062C|\u0643\u062D|\u0643\u062E|\u0643\u0644|\u0643\u0645|\u0644\u062C"),
  (0xFCCA, "\u0644\u062D|\u0644\u062E|\u0644\u0645|\u0644\u0647|\u0645\u062C|\u0645\u062D"),
  (0xFCD0, "\u0645\u062E|\u0645\u0645|\u0646\u062C|\u0646\u062D|\u0646\u062E|\u0646\u0645"),
  (0xFCD6, "\u0646\u0647|\u0647\u062C|\u0647\u0645|\u0647\u0670|\u064A\u062C|\u064A\u062D"),
  (0xFCDC, "\u064A\u062E|\u064A\u0645|\u064A\u0647|\u0626\u0645|\u0626\u0647|\u0628\u0645"),
  (0xFCE2, "\u0628\u0647|\u062A\u0645|\u062A\u0647|\u062B\u0645|\u062B\u0647|\u0633\u0645"),
  (0xFCE8, "\u0633\u0647|\u0634\u0645|\u0634\u0647|\u0643\u0644|\u0643\u0645|\u0644\u0645"),
  (0xFCEE, "\u0646\u0645|\u0646\u0647|\u064A\u0645|\u064A\u0647|\u0640\u064E\u0651"),
  (0xFCF3, "\u0640\u064F\u0651|\u0640\u0650\u0651|\u0637\u0649|\u0637\u064A|\u0639\u0649"),
  (0xFCF8, "\u0639\u064A|\u063A\u0649|\u063A\u064A|\u0633\u0649|\u0633\u064A|\u0634\u0649"),
  (0xFCFE, "\u0634\u064A|\u062D\u0649|\u062D\u064A|\u062C\u0649|\u062C\u064A|\u062E\u0649"),
  (0xFD04, "\u062E\u064A|\u0635\u0649|\u0635\u064A|\u0636\u0649|\u0636\u064A|\u0634\u062C"),
  (0xFD0A, "\u0634\u062D|\u0634\u062E|\u0634\u0645|\u0634\u0631|\u0633\u0631|\u0635\u0631"),
  (0xFD10, "\u0636\u0631|\u0637\u0649|\u0637\u064A|\u0639\u0649|\u0639\u064A|\u063A\u0649"),
  (0xFD16, "\u063A\u064A|\u0633\u0649|\u0633\u064A|\u0634\u0649|\u0634\u064A|\u062D\u0649"),
  (0xFD1C, "\u062D\u064A|\u062C\u0649|\u062C\u064A|\u062E\u0649|\u062E\u064A|\u0635\u0649"),
  (0xFD22, "\u0635\u064A|\u0636\u0649|\u0636\u064A|\u0634\u062C|\u0634\u062D|\u0634\u062E"),
  (0xFD28, "\u0634\u0645|\u0634\u0631|\u0633\u0631|\u0635\u0631|\u0636\u0631|\u0634\u062C"),
  (0xFD2E, "\u0634\u062D|\u0634\u062E|\u0634\u0645|\u0633\u0647|\u0634\u0647|\u0637\u0645"),
  (0xFD34, "\u0633\u062C|\u0633\u062D|\u0633\u062E|\u0634\u062C|\u0634\u062D|\u0634\u062E"),
  (0xFD3A, "\u0637\u0645|\u0638\u0645|\u0627\u064B|\u0627\u064B"),
  (0xFD50, "\u062A\u062C\u0645|\u062A\u062D\u062C|\u062A\u062D\u062C|\u062A\u062D\u0645"),
  (0xFD54, "\u062A\u062E\u0645|\u062A\u0645\u062C|\u062A\u0645\u062D|\u062A\u0645\u062E"),
  (0xFD58, "\u062C\u0645\u062D|\u062C\u0645\u062D|\u062D\u0645\u064A|\u062D\u0645\u0649"),
  (0xFD5C, "\u0633\u062D\u062C|\u0633\u062C\u062D|\u0633\u062C\u0649|\u0633\u0645\u062D"),
  (0xFD60, "\u0633\u0645\u062D|\u0633\u0645\u062C|\u0633\u0645\u0645|\u0633\u0645\u0645"),
  (0xFD64, "\u0635\u062D\u062D|\u0635\u062D\u062D|\u0635\u0645\u0645|\u0634\u062D\u0645"),
  (0xFD68, "\u0634\u062D\u0645|\u0634\u062C\u064A|\u0634\u0645\u062E|\u0634\u0645\u062E"),
  (0xFD6C, "\u0634\u0645\u0645|\u0634\u0645\u0645|\u0636\u062D\u0649|\u0636\u062E\u0645"),
  (0xFD70, "\u0636\u062E\u0645|\u0637\u0645\u062D|\u0637\u0645\u062D|\u0637\u0645\u0645"),
  (0xFD74, "\u0637\u0645\u064A|\u0639\u062C\u0645|\u0639\u0645\u0645|\u0639\u0645\u0645"),
  (0xFD78, "\u0639\u0645\u0649|\u063A\u0645\u0645|\u063A\u0645\u064A|\u063A\u0645\u0649"),
  (0xFD7C, "\u0641\u062E\u0645|\u0641\u062E\u0645|\u0642\u0645\u062D|\u0642\u0645\u0645"),
  (0xFD80, "\u0644\u062D\u0645|\u0644\u062D\u064A|\u0644\u062D\u0649|\u0644\u062C\u062C"),
  (0xFD84, "\u0644\u062C\u062C|\u0644\u062E\u0645|\u0644\u062E\u0645|\u0644\u0645\u062D"),
  (0xFD88, "\u0644\u0645\u062D|\u0645\u062D\u062C|\u0645\u062D\u0645|\u0645\u062D\u064A"),
  (0xFD8C, "\u0645\u062C\u062D|\u0645\u062C\u0645|\u0645\u062E\u062C|\u0645\u062E\u0645"),
  (0xFD92, "\u0645\u062C\u062E|\u0647\u0645\u062C|\u0647\u0645\u0645|\u0646\u062D\u0645"),
  (0xFD96, "\u0646\u062D\u0649|\u0646\u062C\u0645|\u0646\u062C\u0645|\u0646\u062C\u0649"),
  (0xFD9A, "\u0646\u0645\u064A|\u0646\u0645\u0649|\u064A\u0645\u0645|\u064A\u0645\u0645"),
  (0xFD9E, "\u0628\u062E\u064A|\u062A\u062C\u064A|\u062A\u062C\u0649|\u062A\u062E\u064A"),
  (0xFDA2, "\u062A\u062E\u0649|\u062A\u0645\u064A|\u062A\u0645\u0649|\u062C\u0645\u064A"),
  (0xFDA6, "\u062C\u062D\u0649|\u062C\u0645\u0649|\u0633\u062E\u0649|\u0635\u062D\u064A"),
  (0xFDAA, "\u0634\u062D\u064A|\u0636\u062D\u064A|\u0644\u062C\u064A|\u0644\u0645\u064A"),
  (0xFDAE, "\u064A\u062D\u064A|\u064A\u062C\u064A|\u064A\u0645\u064A|\u0645\u0645\u064A"),
  (0xFDB2, "\u0642\u0645\u064A|\u0646\u062D\u064A|\u0642\u0645\u062D|\u0644\u062D\u0645"),
  (0xFDB6, "\u0639\u0645\u064A|\u0643\u0645\u064A|\u0646\u062C\u062D|\u0645\u062E\u064A"),
  (0xFDBA, "\u0644\u062C\u0645|\u0643\u0645\u0645|\u0644\u062C\u0645|\u0646\u062C\u062D"),
  (0xFDBE, "\u062C\u062D\u064A|\u062D\u062C\u064A|\u0645\u062C\u064A|\u0641\u0645\u064A"),
  (0xFDC2, "\u0628\u062D\u064A|\u0643\u0645\u0645|\u0639\u062C\u0645|\u0635\u0645\u0645"),
  (0xFDC6, "\u0633\u062E\u064A|\u0646\u062C\u064A"),
  (0xFDF0, "\u0635\u0644\u06D2|\u0642\u0644\u06D2|\u0627\u0644\u0644\u0647"),
  (0xFDF3, "\u0627\u0643\u0628\u0631|\u0645\u062D\u0645\u062F|\u0635\u0644\u0639\u0645"),
  (0xFDF6, "\u0631\u0633\u0648\u0644|\u0639\u0644\u064A\u0647|\u0648\u0633\u0644\u0645"),
  (0xFDF9, "\u0635\u0644\u0649"), (0xFDFA, "صلى\x20الله\x20عليه\x20وسلم"),
  (0xFDFB, "\u062C\u0644\x20\u062C\u0644\u0627\u0644\u0647|\u0631\u06CC\u0627\u0644"),
  (0xFE10, ",|\u3001"), (0xFE13, ":|;|!|?|\u3016|\u3017"),
  (0xFE31, "\u2014|\u2013|_|_|(|)|\x7b|\x7d|\u3014|\u3015|\u3010|\u3011|\u300A|\u300B|\u3008"),
  (0xFE40, "\u3009"), (0xFE47, "[|]|\x20\u0305|\x20\u0305|\x20\u0305|\x20\u0305|_|_|_|,|\u3001"),
  (0xFE54, ";|:|?|!|\u2014|(|)|\x7b|\x7d|\u3014|\u3015|#|&|*|+|-|<|>|="), (0xFE68, "\\|$|%|@"),
  (0xFE70, "\x20\u064B|\u0640\u064B|\x20\u064C"), (0xFE74, "\x20\u064D"),
  (0xFE76, "\x20\u064E|\u0640\u064E|\x20\u064F|\u0640\u064F|\x20\u0650|\u0640\u0650|\x20\u0651"),
  (0xFE7D, "\u0640\u0651|\x20\u0652|\u0640\u0652|\u0621|\u0622|\u0622|\u0623|\u0623|\u0624|\u0624"),
  (0xFE87, "\u0625|\u0625|\u0626|\u0626|\u0626|\u0626|\u0627|\u0627|\u0628|\u0628|\u0628|\u0628"),
  (0xFE93, "\u0629|\u0629|\u062A|\u062A|\u062A|\u062A|\u062B|\u062B|\u062B|\u062B|\u062C|\u062C"),
  (0xFE9F, "\u062C|\u062C|\u062D|\u062D|\u062D|\u062D|\u062E|\u062E|\u062E|\u062E|\u062F|\u062F"),
  (0xFEAB, "\u0630|\u0630|\u0631|\u0631|\u0632|\u0632|\u0633|\u0633|\u0633|\u0633|\u0634|\u0634"),
  (0xFEB7, "\u0634|\u0634|\u0635|\u0635|\u0635|\u0635|\u0636|\u0636|\u0636|\u0636|\u0637|\u0637"),
  (0xFEC3, "\u0637|\u0637|\u0638|\u0638|\u0638|\u0638|\u0639|\u0639|\u0639|\u0639|\u063A|\u063A"),
  (0xFECF, "\u063A|\u063A|\u0641|\u0641|\u0641|\u0641|\u0642|\u0642|\u0642|\u0642|\u0643|\u0643"),
  (0xFEDB, "\u0643|\u0643|\u0644|\u0644|\u0644|\u0644|\u0645|\u0645|\u0645|\u0645|\u0646|\u0646"),
  (0xFEE7, "\u0646|\u0646|\u0647|\u0647|\u0647|\u0647|\u0648|\u0648|\u0649|\u0649|\u064A|\u064A"),
  (0xFEF3, "\u064A|\u064A|\u0644\u0622|\u0644\u0622|\u0644\u0623|\u0644\u0623|\u0644\u0625"),
  (0xFEFA, "\u0644\u0625|\u0644\u0627|\u0644\u0627"),
  (0xFF5F, "\u2985|\u2986|.|\u300C|\u300D|\u3001|\u30FB|ヲ|ァ|ィ|ゥ|ェ|ォ|ャ|ュ|ョ|ッ|\u30FC|ア|イ|ウ|エ|オ|カ|キ"),
  (0xFF78, "ク|ケ|コ|サ|シ|ス|セ|ソ|タ|チ|ツ|テ|ト"), (0xFF8B, "ヒ|フ|ヘ|ホ"), (0xFF94, "ヤ|ユ"),
  (0xFF9C, "ワ|ン|\u3099|\u309A"),
  (0xFFA1, "\u1100|\u1101|\u11AA|\u1102|\u11AC|\u11AD|\u1103|\u1104|\u1105"),
  (0xFFB0, "\u111A|\u1106|\u1107|\u1108|\u1121"), (0xFFDA, "\u1173|\u1174|\u1175"),
  (0xFFE0, "\u00A2|\u00A3|\u00AC|\x20\u0304|\u00A6|\u00A5|\u20A9"), (0xFFE8, "\u2502"),
  (0xFFED, "\u25A0|\u25CB"), (0x10594, "𐖻|𐖼"), (0x10781, "\u02D0|\u02D1|æ|ʙ|ɓ"),
  (0x10787, "ʣ|ꭦ|ʥ|ʤ|ɖ|ɗ|ᶑ|ɘ|ɞ|ʩ|ɤ|ɢ|ɠ|ʛ|ħ|ʜ|ɧ|ʄ|ʪ|ʫ|ɬ|𝼄|ꞎ|ɮ|𝼅|ʎ|𝼆|ø|ɶ|ɷ|q|ɺ|𝼈|ɽ|ɾ|ʀ|ʨ|ʦ|ꭧ|ʧ|ʈ|ⱱ"),
  (0x107B2, "ʏ|ʡ|ʢ|ʘ|ǀ|ǁ|ǂ|𝼊|𝼞"), (0x1D49C, "a"), (0x1D49E, "c|d"), (0x1D4A2, "g"),
  (0x1D4A5, "j|k"), (0x1D4BB, "f"), (0x1D504, "a|b"), (0x1D538, "a|b"), (0x1D546, "o"),
  (0x1D6A4, "ı|ȷ"), (0x1D6B9, "θ"), (0x1D6C1, "\u2207"), (0x1D6D3, "σ"),
  (0x1D6DB, "\u2202|ε|θ|κ|φ|ρ|π"), (0x1D6F3, "θ"), (0x1D6FB, "\u2207"), (0x1D70D, "σ"),
  (0x1D715, "\u2202|ε|θ|κ|φ|ρ|π"), (0x1D72D, "θ"), (0x1D735, "\u2207"), (0x1D747, "σ"),
  (0x1D74F, "\u2202|ε|θ|κ|φ|ρ|π"), (0x1D767, "θ"), (0x1D76F, "\u2207"), (0x1D781, "σ"),
  (0x1D789, "\u2202|ε|θ|κ|φ|ρ|π"), (0x1D7A1, "θ"), (0x1D7A9, "\u2207"), (0x1D7BB, "σ"),
  (0x1D7C3, "\u2202|ε|θ|κ|φ|ρ|π|ϝ|ϝ"), (0x1E039, "к|л|м"), (0x1E047, "ы|э|ю|ꚉ|ә|і|ј|ө|ү|ӏ"),
  (0x1E05A, "к|л|о|п|с"), (0x1E065, "ъ|ы|ґ|і|ѕ|џ|ҫ|ꙑ|ұ"), (0x1EE00, "\u0627|\u0628|\u062C|\u062F"),
  (0x1EE05, "\u0648|\u0632|\u062D|\u0637|\u064A"),
  (0x1EE0E, "\u0633|\u0639|\u0641|\u0635|\u0642|\u0631|\u0634|\u062A|\u062B|\u062E|\u0630|\u0636"),
  (0x1EE1A, "\u0638|\u063A|\u066E|\u06BA|\u06A1|\u066F"), (0x1EE21, "\u0628|\u062C"),
  (0x1EE24, "\u0647"), (0x1EE27, "\u062D"), (0x1EE29, "\u064A"),
  (0x1EE2E, "\u0633|\u0639|\u0641|\u0635|\u0642"), (0x1EE34, "\u0634|\u062A|\u062B|\u062E"),
  (0x1EE39, "\u0636"), (0x1EE3B, "\u063A"), (0x1EE42, "\u062C"), (0x1EE47, "\u062D"),
  (0x1EE49, "\u064A"), (0x1EE4B, "\u0644"), (0x1EE4D, "\u0646|\u0633|\u0639"),
  (0x1EE51, "\u0635|\u0642"), (0x1EE54, "\u0634"), (0x1EE57, "\u062E"), (0x1EE59, "\u0636"),
  (0x1EE5B, "\u063A"), (0x1EE5D, "\u06BA"), (0x1EE5F, "\u066F"), (0x1EE61, "\u0628|\u062C"),
  (0x1EE64, "\u0647"), (0x1EE67, "\u062D|\u0637|\u064A|\u0643"),
  (0x1EE6C, "\u0645|\u0646|\u0633|\u0639|\u0641|\u0635|\u0642"),
  (0x1EE74, "\u0634|\u062A|\u062B|\u062E"), (0x1EE79, "\u0636|\u0638|\u063A|\u066E"),
  (0x1EE7E, "\u06A1"),
  (0x1EE80, "\u0627|\u0628|\u062C|\u062F|\u0647|\u0648|\u0632|\u062D|\u0637|\u064A"),
  (0x1EE8B, "\u0644|\u0645|\u0646|\u0633|\u0639|\u0641|\u0635|\u0642|\u0631|\u0634|\u062A|\u062B"),
  (0x1EE97, "\u062E|\u0630|\u0636|\u0638|\u063A"), (0x1EEA1, "\u0628|\u062C|\u062F"),
  (0x1EEA5, "\u0648|\u0632|\u062D|\u0637|\u064A"),
  (0x1EEAB, "\u0644|\u0645|\u0646|\u0633|\u0639|\u0641|\u0635|\u0642|\u0631|\u0634|\u062A|\u062B"),
  (0x1EEB7, "\u062E|\u0630|\u0636|\u0638|\u063A"), (0x1F101, "0,|1,|2,|3,|4,|5,|6,|7,|8,|9,"),
  (0x1F110, "(a)|(b)|(c)|(d)|(e)|(f)|(g)|(h)|(i)|(j)|(k)|(l)|(m)|(n)|(o)|(p)|(q)|(r)|(s)|(t)|(u)"),
  (0x1F125, "(v)|(w)|(x)|(y)|(z)|\u3014s\u3015|c|r|cd|wz"), (0x1F14A, "hv|mv|sd|ss|ppv|wc"),
  (0x1F16A, "mc|md|mr"), (0x1F190, "dj"), (0x1F200, "ほか|ココ|サ"),
  (0x1F210, "手|字|双|\u30C7|二|多|解|天|交|映|無|料|前|後|再|新|初|終|生|販|声|吹|演|投|捕|一|三|遊|左|中|右|指|走|打|禁|空|合|満|有|月"),
  (0x1F238, "申|割|営|配"),
  (0x1F240, "\u3014本\u3015|\u3014三\u3015|\u3014二\u3015|\u3014安\u3015|\u3014点\u3015|\u3014打\u3015"),
  (0x1F246, "\u3014盗\u3015|\u3014勝\u3015|\u3014敗\u3015"), (0x1F250, "得|可")]

/-- The other images. -/
def images : List (Char × List Char) := Text.imagesOfRuns imageRuns

/-- The image of a character that has one of its own. -/
def image? (c : Char) : Option (List Char) :=
  let n := c.toNat
  if Text.inRanges ignored c then some []
  else match shifted.find? fun (first, last, _) => first ≤ n && n ≤ last with
    | some (first, _, image) => some [Char.ofNat (image + (n - first))]
    | none =>
      if alternating.any fun (first, last) => first ≤ n && n ≤ last && (n - first) % 2 == 0 then
        some [Char.ofNat (n + 1)]
      else images.lookup c

/-- What a domain makes of a character. One without an image of its own is replaced part by part,
and a part without an image stays. -/
def mapping? (c : Char) : Option (List Char) :=
  if Text.inRanges disallowed c then none
  else some ((image? c).getD ((Text.decompose c).flatMap fun part => (image? part).getD [part]))

theorem mapping?_eq_none_iff {c : Char} :
    mapping? c = none ↔ Text.inRanges disallowed c = true := by
  simp [mapping?]

/-- An image of its own goes before the images of the parts. -/
theorem mapping?_of_image? {c : Char} {image : List Char} (h : image? c = some image)
    (allowed : Text.inRanges disallowed c = false) : mapping? c = some image := by
  simp [mapping?, h, allowed]

theorem disallowed_ascending : Text.Ascending disallowed := by decide +kernel

end CredentialCeremony.Domain
