import CredentialCeremony.Text.CodePoints

set_option autoImplicit false

/-!
# Decomposition

A character with marks on it stands for its base and the marks. `composites` gives the pairs that
one character stands for and that are written as that character; `expansions` gives the images of
characters that are never written. The syllables of Hangul are composed by arithmetic.

Main statement: `hangulParts?_eq_none` (only syllables have parts).
-/

namespace CredentialCeremony.Text

/-- The characters that stand for a pair, in runs. -/
def compositeRuns : List (Nat × String) := [
  (0xC0, "A\u0300|A\u0301|A\u0302|A\u0303|A\u0308|A\u030A"),
  (0xC7, "C\u0327|E\u0300|E\u0301|E\u0302|E\u0308|I\u0300|I\u0301|I\u0302|I\u0308"),
  (0xD1, "N\u0303|O\u0300|O\u0301|O\u0302|O\u0303|O\u0308"),
  (0xD9, "U\u0300|U\u0301|U\u0302|U\u0308|Y\u0301"),
  (0xE0, "a\u0300|a\u0301|a\u0302|a\u0303|a\u0308|a\u030A"),
  (0xE7, "c\u0327|e\u0300|e\u0301|e\u0302|e\u0308|i\u0300|i\u0301|i\u0302|i\u0308"),
  (0xF1, "n\u0303|o\u0300|o\u0301|o\u0302|o\u0303|o\u0308"),
  (0xF9, "u\u0300|u\u0301|u\u0302|u\u0308|y\u0301"),
  (0xFF, "y\u0308|A\u0304|a\u0304|A\u0306|a\u0306|A\u0328|a\u0328|C\u0301|c\u0301|C\u0302|c\u0302"),
  (0x10A, "C\u0307|c\u0307|C\u030C|c\u030C|D\u030C|d\u030C"),
  (0x112, "E\u0304|e\u0304|E\u0306|e\u0306|E\u0307|e\u0307|E\u0328|e\u0328|E\u030C|e\u030C"),
  (0x11C, "G\u0302|g\u0302|G\u0306|g\u0306|G\u0307|g\u0307|G\u0327|g\u0327|H\u0302|h\u0302"),
  (0x128, "I\u0303|i\u0303|I\u0304|i\u0304|I\u0306|i\u0306|I\u0328|i\u0328|I\u0307"),
  (0x134, "J\u0302|j\u0302|K\u0327|k\u0327"),
  (0x139, "L\u0301|l\u0301|L\u0327|l\u0327|L\u030C|l\u030C"),
  (0x143, "N\u0301|n\u0301|N\u0327|n\u0327|N\u030C|n\u030C"),
  (0x14C, "O\u0304|o\u0304|O\u0306|o\u0306|O\u030B|o\u030B"),
  (0x154, "R\u0301|r\u0301|R\u0327|r\u0327|R\u030C|r\u030C|S\u0301|s\u0301|S\u0302|s\u0302"),
  (0x15E, "S\u0327|s\u0327|S\u030C|s\u030C|T\u0327|t\u0327|T\u030C|t\u030C"),
  (0x168, "U\u0303|u\u0303|U\u0304|u\u0304|U\u0306|u\u0306|U\u030A|u\u030A|U\u030B|u\u030B"),
  (0x172, "U\u0328|u\u0328|W\u0302|w\u0302|Y\u0302|y\u0302|Y\u0308|Z\u0301|z\u0301|Z\u0307"),
  (0x17C, "z\u0307|Z\u030C|z\u030C"), (0x1A0, "O\u031B|o\u031B"), (0x1AF, "U\u031B|u\u031B"),
  (0x1CD, "A\u030C|a\u030C|I\u030C|i\u030C|O\u030C|o\u030C|U\u030C|u\u030C|\u00DC\u0304"),
  (0x1D6, "\u00FC\u0304|\u00DC\u0301|\u00FC\u0301|\u00DC\u030C|\u00FC\u030C|\u00DC\u0300"),
  (0x1DC, "\u00FC\u0300"),
  (0x1DE, "\u00C4\u0304|\u00E4\u0304|\u0226\u0304|\u0227\u0304|Æ\u0304|æ\u0304"),
  (0x1E6, "G\u030C|g\u030C|K\u030C|k\u030C|O\u0328|o\u0328|\u01EA\u0304|\u01EB\u0304|Ʒ\u030C"),
  (0x1EF, "ʒ\u030C|j\u030C"), (0x1F4, "G\u0301|g\u0301"),
  (0x1F8, "N\u0300|n\u0300|\u00C5\u0301|\u00E5\u0301|Æ\u0301|æ\u0301|Ø\u0301|ø\u0301|A\u030F"),
  (0x201, "a\u030F|A\u0311|a\u0311|E\u030F|e\u030F|E\u0311|e\u0311|I\u030F|i\u030F|I\u0311"),
  (0x20B, "i\u0311|O\u030F|o\u030F|O\u0311|o\u0311|R\u030F|r\u030F|R\u0311|r\u0311|U\u030F"),
  (0x215, "u\u030F|U\u0311|u\u0311|S\u0326|s\u0326|T\u0326|t\u0326"), (0x21E, "H\u030C|h\u030C"),
  (0x226, "A\u0307|a\u0307|E\u0327|e\u0327|\u00D6\u0304|\u00F6\u0304|\u00D5\u0304|\u00F5\u0304"),
  (0x22E, "O\u0307|o\u0307|\u022E\u0304|\u022F\u0304|Y\u0304|y\u0304"),
  (0x385, "\u00A8\u0301|Α\u0301"), (0x388, "Ε\u0301|Η\u0301|Ι\u0301"), (0x38C, "Ο\u0301"),
  (0x38E, "Υ\u0301|Ω\u0301|\u03CA\u0301"),
  (0x3AA, "Ι\u0308|Υ\u0308|α\u0301|ε\u0301|η\u0301|ι\u0301|\u03CB\u0301"),
  (0x3CA, "ι\u0308|υ\u0308|ο\u0301|υ\u0301|ω\u0301"), (0x3D3, "ϒ\u0301|ϒ\u0308"),
  (0x400, "Е\u0300|Е\u0308"), (0x403, "Г\u0301"), (0x407, "І\u0308"),
  (0x40C, "К\u0301|И\u0300|У\u0306"), (0x419, "И\u0306"), (0x439, "и\u0306"),
  (0x450, "е\u0300|е\u0308"), (0x453, "г\u0301"), (0x457, "і\u0308"),
  (0x45C, "к\u0301|и\u0300|у\u0306"), (0x476, "Ѵ\u030F|ѵ\u030F"), (0x4C1, "Ж\u0306|ж\u0306"),
  (0x4D0, "А\u0306|а\u0306|А\u0308|а\u0308"), (0x4D6, "Е\u0306|е\u0306"),
  (0x4DA, "Ә\u0308|ә\u0308|Ж\u0308|ж\u0308|З\u0308|з\u0308"),
  (0x4E2, "И\u0304|и\u0304|И\u0308|и\u0308|О\u0308|о\u0308"),
  (0x4EA, "Ө\u0308|ө\u0308|Э\u0308|э\u0308|У\u0304|у\u0304|У\u0308|у\u0308|У\u030B|у\u030B"),
  (0x4F4, "Ч\u0308|ч\u0308"), (0x4F8, "Ы\u0308|ы\u0308"),
  (0x622, "\u0627\u0653|\u0627\u0654|\u0648\u0654|\u0627\u0655|\u064A\u0654"),
  (0x6C0, "\u06D5\u0654"), (0x6C2, "\u06C1\u0654"), (0x6D3, "\u06D2\u0654"), (0x929, "न\u093C"),
  (0x931, "र\u093C"), (0x934, "ळ\u093C"), (0x9CB, "\u09C7\u09BE|\u09C7\u09D7"),
  (0xB48, "\u0B47\u0B56"), (0xB4B, "\u0B47\u0B3E|\u0B47\u0B57"), (0xB94, "ஒ\u0BD7"),
  (0xBCA, "\u0BC6\u0BBE|\u0BC7\u0BBE|\u0BC6\u0BD7"), (0xC48, "\u0C46\u0C56"),
  (0xCC0, "\u0CBF\u0CD5"), (0xCC7, "\u0CC6\u0CD5|\u0CC6\u0CD6"),
  (0xCCA, "\u0CC6\u0CC2|\u0CCA\u0CD5"), (0xD4A, "\u0D46\u0D3E|\u0D47\u0D3E|\u0D46\u0D57"),
  (0xDDA, "\u0DD9\u0DCA"), (0xDDC, "\u0DD9\u0DCF|\u0DDC\u0DCA|\u0DD9\u0DDF"),
  (0x1026, "\u1025\u102E"), (0x1B06, "ᬅ\u1B35"), (0x1B08, "ᬇ\u1B35"), (0x1B0A, "ᬉ\u1B35"),
  (0x1B0C, "ᬋ\u1B35"), (0x1B0E, "ᬍ\u1B35"), (0x1B12, "ᬑ\u1B35"), (0x1B3B, "\u1B3A\u1B35"),
  (0x1B3D, "\u1B3C\u1B35"), (0x1B40, "\u1B3E\u1B35|\u1B3F\u1B35"), (0x1B43, "\u1B42\u1B35"),
  (0x1E00, "A\u0325|a\u0325|B\u0307|b\u0307|B\u0323|b\u0323|B\u0331|b\u0331|\u00C7\u0301"),
  (0x1E09, "\u00E7\u0301|D\u0307|d\u0307|D\u0323|d\u0323|D\u0331|d\u0331|D\u0327|d\u0327|D\u032D"),
  (0x1E13, "d\u032D|\u0112\u0300|\u0113\u0300|\u0112\u0301|\u0113\u0301|E\u032D|e\u032D|E\u0330"),
  (0x1E1B, "e\u0330|\u0228\u0306|\u0229\u0306|F\u0307|f\u0307|G\u0304|g\u0304|H\u0307|h\u0307"),
  (0x1E24, "H\u0323|h\u0323|H\u0308|h\u0308|H\u0327|h\u0327|H\u032E|h\u032E|I\u0330|i\u0330"),
  (0x1E2E, "\u00CF\u0301|\u00EF\u0301|K\u0301|k\u0301|K\u0323|k\u0323|K\u0331|k\u0331|L\u0323"),
  (0x1E37, "l\u0323|\u1E36\u0304|\u1E37\u0304|L\u0331|l\u0331|L\u032D|l\u032D|M\u0301|m\u0301"),
  (0x1E40, "M\u0307|m\u0307|M\u0323|m\u0323|N\u0307|n\u0307|N\u0323|n\u0323|N\u0331|n\u0331"),
  (0x1E4A, "N\u032D|n\u032D|\u00D5\u0301|\u00F5\u0301|\u00D5\u0308|\u00F5\u0308|\u014C\u0300"),
  (0x1E51, "\u014D\u0300|\u014C\u0301|\u014D\u0301|P\u0301|p\u0301|P\u0307|p\u0307|R\u0307"),
  (0x1E59, "r\u0307|R\u0323|r\u0323|\u1E5A\u0304|\u1E5B\u0304|R\u0331|r\u0331|S\u0307|s\u0307"),
  (0x1E62, "S\u0323|s\u0323|\u015A\u0307|\u015B\u0307|\u0160\u0307|\u0161\u0307|\u1E62\u0307"),
  (0x1E69, "\u1E63\u0307|T\u0307|t\u0307|T\u0323|t\u0323|T\u0331|t\u0331|T\u032D|t\u032D|U\u0324"),
  (0x1E73, "u\u0324|U\u0330|u\u0330|U\u032D|u\u032D|\u0168\u0301|\u0169\u0301|\u016A\u0308"),
  (0x1E7B, "\u016B\u0308|V\u0303|v\u0303|V\u0323|v\u0323|W\u0300|w\u0300|W\u0301|w\u0301|W\u0308"),
  (0x1E85, "w\u0308|W\u0307|w\u0307|W\u0323|w\u0323|X\u0307|x\u0307|X\u0308|x\u0308|Y\u0307"),
  (0x1E8F, "y\u0307|Z\u0302|z\u0302|Z\u0323|z\u0323|Z\u0331|z\u0331|h\u0331|t\u0308|w\u030A"),
  (0x1E99, "y\u030A"), (0x1E9B, "ſ\u0307"),
  (0x1EA0, "A\u0323|a\u0323|A\u0309|a\u0309|\u00C2\u0301|\u00E2\u0301|\u00C2\u0300|\u00E2\u0300"),
  (0x1EA8, "\u00C2\u0309|\u00E2\u0309|\u00C2\u0303|\u00E2\u0303|\u1EA0\u0302|\u1EA1\u0302"),
  (0x1EAE, "\u0102\u0301|\u0103\u0301|\u0102\u0300|\u0103\u0300|\u0102\u0309|\u0103\u0309"),
  (0x1EB4, "\u0102\u0303|\u0103\u0303|\u1EA0\u0306|\u1EA1\u0306|E\u0323|e\u0323|E\u0309|e\u0309"),
  (0x1EBC, "E\u0303|e\u0303|\u00CA\u0301|\u00EA\u0301|\u00CA\u0300|\u00EA\u0300|\u00CA\u0309"),
  (0x1EC3, "\u00EA\u0309|\u00CA\u0303|\u00EA\u0303|\u1EB8\u0302|\u1EB9\u0302|I\u0309|i\u0309"),
  (0x1ECA, "I\u0323|i\u0323|O\u0323|o\u0323|O\u0309|o\u0309|\u00D4\u0301|\u00F4\u0301"),
  (0x1ED2, "\u00D4\u0300|\u00F4\u0300|\u00D4\u0309|\u00F4\u0309|\u00D4\u0303|\u00F4\u0303"),
  (0x1ED8, "\u1ECC\u0302|\u1ECD\u0302|\u01A0\u0301|\u01A1\u0301|\u01A0\u0300|\u01A1\u0300"),
  (0x1EDE, "\u01A0\u0309|\u01A1\u0309|\u01A0\u0303|\u01A1\u0303|\u01A0\u0323|\u01A1\u0323|U\u0323"),
  (0x1EE5, "u\u0323|U\u0309|u\u0309|\u01AF\u0301|\u01B0\u0301|\u01AF\u0300|\u01B0\u0300"),
  (0x1EEC, "\u01AF\u0309|\u01B0\u0309|\u01AF\u0303|\u01B0\u0303|\u01AF\u0323|\u01B0\u0323|Y\u0300"),
  (0x1EF3, "y\u0300|Y\u0323|y\u0323|Y\u0309|y\u0309|Y\u0303|y\u0303"),
  (0x1F00, "α\u0313|α\u0314|\u1F00\u0300|\u1F01\u0300|\u1F00\u0301|\u1F01\u0301|\u1F00\u0342"),
  (0x1F07, "\u1F01\u0342|Α\u0313|Α\u0314|\u1F08\u0300|\u1F09\u0300|\u1F08\u0301|\u1F09\u0301"),
  (0x1F0E, "\u1F08\u0342|\u1F09\u0342|ε\u0313|ε\u0314|\u1F10\u0300|\u1F11\u0300|\u1F10\u0301"),
  (0x1F15, "\u1F11\u0301"),
  (0x1F18, "Ε\u0313|Ε\u0314|\u1F18\u0300|\u1F19\u0300|\u1F18\u0301|\u1F19\u0301"),
  (0x1F20, "η\u0313|η\u0314|\u1F20\u0300|\u1F21\u0300|\u1F20\u0301|\u1F21\u0301|\u1F20\u0342"),
  (0x1F27, "\u1F21\u0342|Η\u0313|Η\u0314|\u1F28\u0300|\u1F29\u0300|\u1F28\u0301|\u1F29\u0301"),
  (0x1F2E, "\u1F28\u0342|\u1F29\u0342|ι\u0313|ι\u0314|\u1F30\u0300|\u1F31\u0300|\u1F30\u0301"),
  (0x1F35, "\u1F31\u0301|\u1F30\u0342|\u1F31\u0342|Ι\u0313|Ι\u0314|\u1F38\u0300|\u1F39\u0300"),
  (0x1F3C, "\u1F38\u0301|\u1F39\u0301|\u1F38\u0342|\u1F39\u0342|ο\u0313|ο\u0314|\u1F40\u0300"),
  (0x1F43, "\u1F41\u0300|\u1F40\u0301|\u1F41\u0301"),
  (0x1F48, "Ο\u0313|Ο\u0314|\u1F48\u0300|\u1F49\u0300|\u1F48\u0301|\u1F49\u0301"),
  (0x1F50, "υ\u0313|υ\u0314|\u1F50\u0300|\u1F51\u0300|\u1F50\u0301|\u1F51\u0301|\u1F50\u0342"),
  (0x1F57, "\u1F51\u0342"), (0x1F59, "Υ\u0314"), (0x1F5B, "\u1F59\u0300"), (0x1F5D, "\u1F59\u0301"),
  (0x1F5F, "\u1F59\u0342|ω\u0313|ω\u0314|\u1F60\u0300|\u1F61\u0300|\u1F60\u0301|\u1F61\u0301"),
  (0x1F66, "\u1F60\u0342|\u1F61\u0342|Ω\u0313|Ω\u0314|\u1F68\u0300|\u1F69\u0300|\u1F68\u0301"),
  (0x1F6D, "\u1F69\u0301|\u1F68\u0342|\u1F69\u0342|α\u0300"), (0x1F72, "ε\u0300"),
  (0x1F74, "η\u0300"), (0x1F76, "ι\u0300"), (0x1F78, "ο\u0300"), (0x1F7A, "υ\u0300"),
  (0x1F7C, "ω\u0300"),
  (0x1F80, "\u1F00\u0345|\u1F01\u0345|\u1F02\u0345|\u1F03\u0345|\u1F04\u0345|\u1F05\u0345"),
  (0x1F86, "\u1F06\u0345|\u1F07\u0345|\u1F08\u0345|\u1F09\u0345|\u1F0A\u0345|\u1F0B\u0345"),
  (0x1F8C, "\u1F0C\u0345|\u1F0D\u0345|\u1F0E\u0345|\u1F0F\u0345|\u1F20\u0345|\u1F21\u0345"),
  (0x1F92, "\u1F22\u0345|\u1F23\u0345|\u1F24\u0345|\u1F25\u0345|\u1F26\u0345|\u1F27\u0345"),
  (0x1F98, "\u1F28\u0345|\u1F29\u0345|\u1F2A\u0345|\u1F2B\u0345|\u1F2C\u0345|\u1F2D\u0345"),
  (0x1F9E, "\u1F2E\u0345|\u1F2F\u0345|\u1F60\u0345|\u1F61\u0345|\u1F62\u0345|\u1F63\u0345"),
  (0x1FA4, "\u1F64\u0345|\u1F65\u0345|\u1F66\u0345|\u1F67\u0345|\u1F68\u0345|\u1F69\u0345"),
  (0x1FAA, "\u1F6A\u0345|\u1F6B\u0345|\u1F6C\u0345|\u1F6D\u0345|\u1F6E\u0345|\u1F6F\u0345|α\u0306"),
  (0x1FB1, "α\u0304|\u1F70\u0345|α\u0345|\u03AC\u0345"),
  (0x1FB6, "α\u0342|\u1FB6\u0345|Α\u0306|Α\u0304|Α\u0300"), (0x1FBC, "Α\u0345"),
  (0x1FC1, "\u00A8\u0342|\u1F74\u0345|η\u0345|\u03AE\u0345"),
  (0x1FC6, "η\u0342|\u1FC6\u0345|Ε\u0300"), (0x1FCA, "Η\u0300"),
  (0x1FCC, "Η\u0345|\u1FBF\u0300|\u1FBF\u0301|\u1FBF\u0342|ι\u0306|ι\u0304|\u03CA\u0300"),
  (0x1FD6, "ι\u0342|\u03CA\u0342|Ι\u0306|Ι\u0304|Ι\u0300"),
  (0x1FDD, "\u1FFE\u0300|\u1FFE\u0301|\u1FFE\u0342|υ\u0306|υ\u0304|\u03CB\u0300"),
  (0x1FE4, "ρ\u0313|ρ\u0314|υ\u0342|\u03CB\u0342|Υ\u0306|Υ\u0304|Υ\u0300"),
  (0x1FEC, "Ρ\u0314|\u00A8\u0300"), (0x1FF2, "\u1F7C\u0345|ω\u0345|\u03CE\u0345"),
  (0x1FF6, "ω\u0342|\u1FF6\u0345|Ο\u0300"), (0x1FFA, "Ω\u0300"), (0x1FFC, "Ω\u0345"),
  (0x219A, "\u2190\u0338|\u2192\u0338"), (0x21AE, "\u2194\u0338"),
  (0x21CD, "\u21D0\u0338|\u21D4\u0338|\u21D2\u0338"), (0x2204, "\u2203\u0338"),
  (0x2209, "\u2208\u0338"), (0x220C, "\u220B\u0338"), (0x2224, "\u2223\u0338"),
  (0x2226, "\u2225\u0338"), (0x2241, "\u223C\u0338"), (0x2244, "\u2243\u0338"),
  (0x2247, "\u2245\u0338"), (0x2249, "\u2248\u0338"), (0x2260, "=\u0338"), (0x2262, "\u2261\u0338"),
  (0x226D, "\u224D\u0338|<\u0338|>\u0338|\u2264\u0338|\u2265\u0338"),
  (0x2274, "\u2272\u0338|\u2273\u0338"), (0x2278, "\u2276\u0338|\u2277\u0338"),
  (0x2280, "\u227A\u0338|\u227B\u0338"), (0x2284, "\u2282\u0338|\u2283\u0338"),
  (0x2288, "\u2286\u0338|\u2287\u0338"),
  (0x22AC, "\u22A2\u0338|\u22A8\u0338|\u22A9\u0338|\u22AB\u0338"),
  (0x22E0, "\u227C\u0338|\u227D\u0338|\u2291\u0338|\u2292\u0338"),
  (0x22EA, "\u22B2\u0338|\u22B3\u0338|\u22B4\u0338|\u22B5\u0338"), (0x304C, "か\u3099"),
  (0x304E, "き\u3099"), (0x3050, "く\u3099"), (0x3052, "け\u3099"), (0x3054, "こ\u3099"),
  (0x3056, "さ\u3099"), (0x3058, "し\u3099"), (0x305A, "す\u3099"), (0x305C, "せ\u3099"),
  (0x305E, "そ\u3099"), (0x3060, "た\u3099"), (0x3062, "ち\u3099"), (0x3065, "つ\u3099"),
  (0x3067, "て\u3099"), (0x3069, "と\u3099"), (0x3070, "は\u3099|は\u309A"),
  (0x3073, "ひ\u3099|ひ\u309A"), (0x3076, "ふ\u3099|ふ\u309A"), (0x3079, "へ\u3099|へ\u309A"),
  (0x307C, "ほ\u3099|ほ\u309A"), (0x3094, "う\u3099"), (0x309E, "\u309D\u3099"), (0x30AC, "カ\u3099"),
  (0x30AE, "キ\u3099"), (0x30B0, "ク\u3099"), (0x30B2, "ケ\u3099"), (0x30B4, "コ\u3099"),
  (0x30B6, "サ\u3099"), (0x30B8, "シ\u3099"), (0x30BA, "ス\u3099"), (0x30BC, "セ\u3099"),
  (0x30BE, "ソ\u3099"), (0x30C0, "タ\u3099"), (0x30C2, "チ\u3099"), (0x30C5, "ツ\u3099"),
  (0x30C7, "テ\u3099"), (0x30C9, "ト\u3099"), (0x30D0, "ハ\u3099|ハ\u309A"),
  (0x30D3, "ヒ\u3099|ヒ\u309A"), (0x30D6, "フ\u3099|フ\u309A"), (0x30D9, "ヘ\u3099|ヘ\u309A"),
  (0x30DC, "ホ\u3099|ホ\u309A"), (0x30F4, "ウ\u3099"), (0x30F7, "ワ\u3099|ヰ\u3099|ヱ\u3099|ヲ\u3099"),
  (0x30FE, "\u30FD\u3099"), (0x105C9, "𐗒\u0307"), (0x105E4, "𐗚\u0307"), (0x1109A, "𑂚"),
  (0x1109C, "𑂜"), (0x110AB, "𑂫"), (0x1112E, "𑄮|𑄯"), (0x1134B, "𑍋|𑍌"), (0x11383, "𑎃"),
  (0x11385, "𑎅"), (0x1138E, "𑎎"), (0x11391, "𑎑"), (0x113C5, "𑏅"), (0x113C7, "𑏇|𑏈"),
  (0x114BB, "𑒻|𑒼"), (0x114BE, "𑒾"), (0x115BA, "𑖺|𑖻"), (0x11938, "𑤸"),
  (0x16121, "𖄡|𖄢|𖄣|𖄤|𖄥|𖄦|𖄧|𖄨"), (0x16D68, "𖵨|𖵩|𖵪")]

/-- The characters that always give way to their image, in runs. -/
def expansionRuns : List (Nat × String) := [
  (0x340, "\u0300|\u0301"), (0x343, "\u0313|\u0308\u0301"), (0x374, "\u02B9"), (0x37E, ";"),
  (0x387, "\u00B7"), (0x958, "क\u093C|ख\u093C|ग\u093C|ज\u093C|ड\u093C|ढ\u093C|फ\u093C|य\u093C"),
  (0x9DC, "ড\u09BC|ঢ\u09BC"), (0x9DF, "য\u09BC"), (0xA33, "ਲ\u0A3C"), (0xA36, "ਸ\u0A3C"),
  (0xA59, "ਖ\u0A3C|ਗ\u0A3C|ਜ\u0A3C"), (0xA5E, "ਫ\u0A3C"), (0xB5C, "ଡ\u0B3C|ଢ\u0B3C"),
  (0xF43, "\u0F42\u0FB7"), (0xF4D, "\u0F4C\u0FB7"), (0xF52, "\u0F51\u0FB7"),
  (0xF57, "\u0F56\u0FB7"), (0xF5C, "\u0F5B\u0FB7"), (0xF69, "\u0F40\u0FB5"),
  (0xF73, "\u0F71\u0F72"), (0xF75, "\u0F71\u0F74|\u0FB2\u0F80"), (0xF78, "\u0FB3\u0F80"),
  (0xF81, "\u0F71\u0F80"), (0xF93, "\u0F92\u0FB7"), (0xF9D, "\u0F9C\u0FB7"),
  (0xFA2, "\u0FA1\u0FB7"), (0xFA7, "\u0FA6\u0FB7"), (0xFAC, "\u0FAB\u0FB7"),
  (0xFB9, "\u0F90\u0FB5"), (0x1F71, "α\u0301"), (0x1F73, "ε\u0301"), (0x1F75, "η\u0301"),
  (0x1F77, "ι\u0301"), (0x1F79, "ο\u0301"), (0x1F7B, "υ\u0301"), (0x1F7D, "ω\u0301"),
  (0x1FBB, "Α\u0301"), (0x1FBE, "ι"), (0x1FC9, "Ε\u0301"), (0x1FCB, "Η\u0301"),
  (0x1FD3, "ι\u0308\u0301"), (0x1FDB, "Ι\u0301"), (0x1FE3, "υ\u0308\u0301"), (0x1FEB, "Υ\u0301"),
  (0x1FEE, "\u00A8\u0301|\x60"), (0x1FF9, "Ο\u0301"), (0x1FFB, "Ω\u0301"), (0x1FFD, "\u00B4"),
  (0x2000, "\u2002|\u2003"), (0x2126, "Ω"), (0x212A, "K|A\u030A"), (0x2329, "\u3008|\u3009"),
  (0x2ADC, "\u2ADD\u0338"),
  (0xF900, "豈|更|車|賈|滑|串|句|龜|龜|契|金|喇|奈|懶|癩|羅|蘿|螺|裸|邏|樂|洛|烙|珞|落|酪|駱|亂|卵|欄|爛|蘭|鸞|嵐|濫|藍|襤|拉|臘|蠟|廊|朗|浪"),
  (0xF92B, "狼|郎|來|冷|勞|擄|櫓|爐|盧|老|蘆|虜|路|露|魯|鷺|碌|祿|綠|菉|錄|鹿|論|壟|弄|籠|聾|牢|磊|賂|雷|壘|屢|樓|淚|漏|累|縷|陋|勒|肋|凜|凌"),
  (0xF956, "稜|綾|菱|陵|讀|拏|樂|諾|丹|寧|怒|率|異|北|磻|便|復|不|泌|數|索|參|塞|省|葉|說|殺|辰|沈|拾|若|掠|略|亮|兩|凉|梁|糧|良|諒|量|勵|呂"),
  (0xF981, "女|廬|旅|濾|礪|閭|驪|麗|黎|力|曆|歷|轢|年|憐|戀|撚|漣|煉|璉|秊|練|聯|輦|蓮|連|鍊|列|劣|咽|烈|裂|說|廉|念|捻|殮|簾|獵|令|囹|寧|嶺"),
  (0xF9AC, "怜|玲|瑩|羚|聆|鈴|零|靈|領|例|禮|醴|隸|惡|了|僚|寮|尿|料|樂|燎|療|蓼|遼|龍|暈|阮|劉|杻|柳|流|溜|琉|留|硫|紐|類|六|戮|陸|倫|崙|淪"),
  (0xF9D7, "輪|律|慄|栗|率|隆|利|吏|履|易|李|梨|泥|理|痢|罹|裏|裡|里|離|匿|溺|吝|燐|璘|藺|隣|鱗|麟|林|淋|臨|立|笠|粒|狀|炙|識|什|茶|刺|切|度"),
  (0xFA02, "拓|糖|宅|洞|暴|輻|行|降|見|廓|兀|嗀"), (0xFA10, "塚"), (0xFA12, "晴"),
  (0xFA15, "凞|猪|益|礼|神|祥|福|靖|精|羽"), (0xFA20, "蘒"), (0xFA22, "諸"), (0xFA25, "逸|都"),
  (0xFA2A, "飯|飼|館|鶴|郞|隷|侮|僧|免|勉|勤|卑|喝|嘆|器|塀|墨|層|屮|悔|慨|憎|懲|敏|既|暑|梅|海|渚|漢|煮|爫|琢|碑|社|祉|祈|祐|祖|祝|禍|禎|穀"),
  (0xFA55, "突|節|練|縉|繁|署|者|臭|艹|艹|著|褐|視|謁|謹|賓|贈|辶|逸|難|響|頻|恵|𤋮|舘"),
  (0xFA70, "並|况|全|侀|充|冀|勇|勺|喝|啕|喙|嗢|塚|墳|奄|奔|婢|嬨|廒|廙|彩|徭|惘|慎|愈|憎|慠|懲|戴|揄|搜|摒|敖|晴|朗|望|杖|歹|殺|流|滛|滋|漢"),
  (0xFA9B, "瀞|煮|瞧|爵|犯|猪|瑱|甆|画|瘝|瘟|益|盛|直|睊|着|磌|窱|節|类|絛|練|缾|者|荒|華|蝹|襁|覆|視|調|諸|請|謁|諾|諭|謹|變|贈|輸|遲|醙|鉶"),
  (0xFAC6, "陼|難|靖|韛|響|頋|頻|鬒|龜|𢡊|𢡄|𣏕|㮝|䀘|䀹|𥉉|𥳐|𧻓|齃|龎"), (0xFB1D, "\u05D9\u05B4"),
  (0xFB1F, "\u05F2\u05B7"),
  (0xFB2A, "\u05E9\u05C1|\u05E9\u05C2|\u05E9\u05BC\u05C1|\u05E9\u05BC\u05C2|\u05D0\u05B7"),
  (0xFB2F, "\u05D0\u05B8|\u05D0\u05BC|\u05D1\u05BC|\u05D2\u05BC|\u05D3\u05BC|\u05D4\u05BC"),
  (0xFB35, "\u05D5\u05BC|\u05D6\u05BC"),
  (0xFB38, "\u05D8\u05BC|\u05D9\u05BC|\u05DA\u05BC|\u05DB\u05BC|\u05DC\u05BC"),
  (0xFB3E, "\u05DE\u05BC"), (0xFB40, "\u05E0\u05BC|\u05E1\u05BC"),
  (0xFB43, "\u05E3\u05BC|\u05E4\u05BC"),
  (0xFB46, "\u05E6\u05BC|\u05E7\u05BC|\u05E8\u05BC|\u05E9\u05BC|\u05EA\u05BC|\u05D5\u05B9"),
  (0xFB4C, "\u05D1\u05BF|\u05DB\u05BF|\u05E4\u05BF"), (0x1D15E, "𝅗𝅥|𝅘𝅥|𝅘𝅥𝅮|𝅘𝅥𝅯|𝅘𝅥𝅰|𝅘𝅥𝅱|𝅘𝅥𝅲"),
  (0x1D1BB, "𝆹𝅥|𝆺𝅥|𝆹𝅥𝅮|𝆺𝅥𝅮|𝆹𝅥𝅯|𝆺𝅥𝅯"),
  (0x2F800, "丽|丸|乁|𠄢|你|侮|侻|倂|偺|備|僧|像|㒞|𠘺|免|兔|兤|具|𠔜|㒹|內|再|𠕋|冗|冤|仌|冬|况|𩇟|凵|刃|㓟|刻|剆|割|剷|㔕|勇|勉|勤|勺|包"),
  (0x2F82A, "匆|北|卉|卑|博|即|卽|卿|卿|卿|𠨬|灰|及|叟|𠭣|叫|叱|吆|咞|吸|呈|周|咢|哶|唐|啓|啣|善|善|喙|喫|喳|嗂|圖|嘆|圗|噑|噴|切|壮|城|埴"),
  (0x2F854, "堍|型|堲|報|墬|𡓤|売|壷|夆|多|夢|奢|𡚨|𡛪|姬|娛|娧|姘|婦|㛮|㛼|嬈|嬾|嬾|𡧈|寃|寘|寧|寳|𡬘|寿|将|当|尢|㞁|屠|屮|峀|岍|𡷤|嵃|𡷦"),
  (0x2F87E, "嵮|嵫|嵼|巡|巢|㠯|巽|帨|帽|幩|㡢|𢆃|㡼|庰|庳|庶|廊|𪎒|廾|𢌱|𢌱|舁|弢|弢|㣇|𣊸|𦇚|形|彫|㣣|徚|忍|志|忹|悁|㤺|㤜|悔|𢛔|惇|慈|慌"),
  (0x2F8A8, "慎|慌|慺|憎|憲|憤|憯|懞|懲|懶|成|戛|扝|抱|拔|捐|𢬌|挽|拼|捨|掃|揤|𢯱|搢|揅|掩|㨮|摩|摾|撝|摷|㩬|敏|敬|𣀊|旣|書|晉|㬙|暑|㬈|㫤"),
  (0x2F8D2, "冒|冕|最|暜|肭|䏙|朗|望|朡|杞|杓|𣏃|㭉|柺|枅|桒|梅|𣑭|梎|栟|椔|㮝|楂|榣|槪|檨|𣚣|櫛|㰘|次|𣢧|歔|㱎|歲|殟|殺|殻|𣪍|𡴋|𣫺|汎|𣲼"),
  (0x2F8FC, "沿|泍|汧|洖|派|海|流|浩|浸|涅|𣴞|洴|港|湮|㴳|滋|滇|𣻑|淹|潮|𣽞|𣾎|濆|瀹|瀞|瀛|㶖|灊|災|灷|炭|𠔥|煅|𤉣|熜|𤎫|爨|爵|牐|𤘈|犀|犕"),
  (0x2F926, "𤜵|𤠔|獺|王|㺬|玥|㺸|㺸|瑇|瑜|瑱|璅|瓊|㼛|甤|𤰶|甾|𤲒|異|𢆟|瘐|𤾡|𤾸|𥁄|㿼|䀈|直|𥃳|𥃲|𥄙|𥄳|眞|真|真|睊|䀹|瞋|䁆|䂖|𥐝|硎|碌"),
  (0x2F950, "磌|䃣|𥘦|祖|𥚚|𥛅|福|秫|䄯|穀|穊|穏|𥥼|𥪧|𥪧|竮|䈂|𥮫|篆|築|䈧|𥲀|糒|䊠|糨|糣|紀|𥾆|絣|䌁|緇|縂|繅|䌴|𦈨|𦉇|䍙|𦋙|罺|𦌾|羕|翺"),
  (0x2F97A, "者|𦓚|𦔣|聠|𦖨|聰|𣍟|䏕|育|脃|䐋|脾|媵|𦞧|𦞵|𣎓|𣎜|舁|舄|辞|䑫|芑|芋|芝|劳|花|芳|芽|苦|𦬼|若|茝|荣|莭|茣|莽|菧|著|荓|菊|菌|菜"),
  (0x2F9A4, "𦰶|𦵫|𦳕|䔫|蓱|蓳|蔖|𧏊|蕤|𦼬|䕝|䕡|𦾱|𧃒|䕫|虐|虜|虧|虩|蚩|蚈|蜎|蛢|蝹|蜨|蝫|螆|䗗|蟡|蠁|䗹|衠|衣|𧙧|裗|裞|䘵|裺|㒻|𧢮|𧥦|䚾"),
  (0x2F9CE, "䛇|誠|諭|變|豕|𧲨|貫|賁|贛|起|𧼯|𠠄|跋|趼|跰|𠣞|軔|輸|𨗒|𨗭|邔|郱|鄑|𨜮|鄛|鈸|鋗|鋘|鉼|鏹|鐕|𨯺|開|䦕|閷|𨵷|䧦|雃|嶲|霣|𩅅|𩈚"),
  (0x2F9F8, "䩮|䩶|韠|𩐊|䪲|𩒖|頋|頋|頩|𩖶|飢|䬳|餩|馧|駂|駾|䯎|𩬰|鬒|鱀|鳽|䳎|䳭|鵧|𪃎|䳸|𪄅|𪈎|𪊑|麻|䵖|黹|黾|鼅|鼏|鼖|鼻|𪘀")]

/-- The characters that stand for a pair, each with the pair. -/
def composites : List (Char × List Char) := imagesOfRuns compositeRuns

/-- The characters that always give way to their image. -/
def expansions : List (Char × List Char) := imagesOfRuns expansionRuns

/-- The first syllable of Hangul. -/
def firstSyllable : Nat := 0xAC00

/-- The number of syllables of Hangul: 19 initials, 21 vowels, 28 finals of which one is none. -/
def syllableCount : Nat := 19 * 21 * 28

/-- The letters of a Hangul syllable. -/
def hangulParts? (c : Char) : Option (List Char) :=
  let i := c.toNat - firstSyllable
  if c.toNat < firstSyllable ∨ syllableCount ≤ i then none
  else
    let front := [Char.ofNat (0x1100 + i / 588), Char.ofNat (0x1161 + i % 588 / 28)]
    some (if i % 28 = 0 then front else front ++ [Char.ofNat (0x11A7 + i % 28)])

/-- The Hangul syllable of a pair: of an initial and a vowel, or of a syllable and a final. -/
def hangulWhole? (a b : Char) : Option Char :=
  let initial := a.toNat - 0x1100
  let vowel := b.toNat - 0x1161
  let syllable := a.toNat - firstSyllable
  let final := b.toNat - 0x11A7
  if 0x1100 ≤ a.toNat ∧ initial < 19 ∧ 0x1161 ≤ b.toNat ∧ vowel < 21 then
    some (Char.ofNat (firstSyllable + (initial * 21 + vowel) * 28))
  else if firstSyllable ≤ a.toNat ∧ syllable < syllableCount ∧ syllable % 28 = 0 ∧
      0x11A7 < b.toNat ∧ final < 28 then
    some (Char.ofNat (a.toNat + final))
  else none

/-- What a character stands for. The base of a composite may be a composite again, at most as often
as `depth` tells. -/
def decomposeTo (depth : Nat) (c : Char) : List Char :=
  match depth with
  | 0 => [c]
  | depth + 1 =>
    match hangulParts? c <|> expansions.lookup c with
    | some parts => parts
    | none =>
      match composites.lookup c with
      | some (base :: marks) => decomposeTo depth base ++ marks
      | _ => [c]

/-- What a character stands for; no composite has more than three marks. -/
def decompose (c : Char) : List Char := decomposeTo 4 c

/-- The character that stands for a pair. -/
def compositeOf? (a b : Char) : Option Char :=
  hangulWhole? a b <|> (composites.find? fun entry => entry.2 == [a, b]).map Prod.fst

/-- Only syllables have parts. -/
theorem hangulParts?_eq_none {c : Char} :
    hangulParts? c = none ↔ c.toNat < firstSyllable ∨ syllableCount ≤ c.toNat - firstSyllable := by
  simp only [hangulParts?]
  split <;> simp_all

end CredentialCeremony.Text
