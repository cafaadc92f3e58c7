/-!
# Domain names in ASCII

What a domain name means in ASCII: capitals are small letters, and a character that only looks
different from one or from a few of ASCII, such as a fullwidth digit, a letter in a circle or an
ideographic full stop, stands for them. Characters that nobody sees stand for nothing.

The tables hold the characters of Unicode 16 whose image under the mapping of domain names (UTS 46)
is in ASCII or empty. A character whose image is not is left as it stands, and so is a label in
Punycode: names with one are taken, and neither brought to a normal form nor refused for it.

## Main definitions

* `Domain.alphabets`, `Domain.variants`, `Domain.ligatures`: the characters that stand for others of
  ASCII
* `Domain.unseen`: the characters that stand for nothing
* `Domain.image`: what a character stands for
* `Domain.mapped`: a domain name with every character replaced by what it stands for
-/

set_option autoImplicit false

namespace SessionDirectory.Url.Domain

/-- Runs of characters that stand for the small letters in their order, over and over: the first of
them, the place of its letter in the alphabet, and how many there are. -/
def alphabets : List (Nat × Nat × Nat) :=
  [(0x24b6, 0, 52), (0xff21, 0, 26), (0xff41, 0, 26), (0x1ccd6, 0, 26), (0x1d400, 0, 85),
   (0x1d456, 8, 71), (0x1d4c5, 15, 65), (0x1d51e, 0, 28), (0x1d552, 0, 338), (0x1f130, 0, 26)]

/-- Other runs of characters that stand for one of ASCII each, by the first of them. -/
def variants : List (Nat × String) :=
  [(0xa0, " "), (0xaa, "a"), (0xb2, "23"), (0xb9, "1o"), (0x17f, "s"), (0x2b0, "h"),
   (0x2b2, "jr"), (0x2b7, "wy"), (0x2e1, "lsx"), (0x37e, ";"), (0x1d2c, "a"), (0x1d2e, "b"),
   (0x1d30, "de"), (0x1d33, "ghijklmn"), (0x1d3c, "o"), (0x1d3e, "prtuwa"), (0x1d47, "bde"),
   (0x1d4d, "g"), (0x1d4f, "km"), (0x1d52, "o"), (0x1d56, "ptu"), (0x1d5b, "v"), (0x1d62, "iruv"),
   (0x1d9c, "c"), (0x1da0, "f"), (0x1dbb, "z"), (0x1fef, "\x60"), (0x2000, "           "),
   (0x202f, " "), (0x205f, " "), (0x2070, "0i"), (0x2074, "456789+"), (0x207c, "=()n0123456789+"),
   (0x208c, "=()"), (0x2090, "aeox"), (0x2095, "hklmnpst"), (0x2102, "c"), (0x210a, "ghhhh"),
   (0x2110, "iill"), (0x2115, "n"), (0x2119, "pqrrr"), (0x2124, "z"), (0x2128, "z"),
   (0x212a, "k"), (0x212c, "bc"), (0x212f, "eef"), (0x2133, "mo"), (0x2139, "i"),
   (0x2145, "ddeij"), (0x2160, "i"), (0x2164, "v"), (0x2169, "x"), (0x216c, "lcdmi"),
   (0x2174, "v"), (0x2179, "x"), (0x217c, "lcdm"), (0x2460, "123456789"), (0x24ea, "0"),
   (0x2c7c, "jv"), (0x3000, " "), (0x3002, "."), (0xa7f2, "cfq"), (0xfb29, "+"), (0xfe10, ","),
   (0xfe13, ":;!?"), (0xfe33, "__()\x7b\x7d"), (0xfe47, "[]"), (0xfe4d, "___,"), (0xfe54, ";:?!"),
   (0xfe59, "()\x7b\x7d"), (0xfe5f, "#&*+-<>="), (0xfe68, "\\$%@"),
   (0xff01, "!\"#$%&\x27()*+,-./0123456789:;<=>?@"), (0xff3b, "[\\]^_\x60"),
   (0xff5b, "\x7b|\x7d~"), (0xff61, "."), (0x107a5, "q"), (0x1ccf0, "0123456789"),
   (0x1d49e, "cd"), (0x1d4a2, "g"), (0x1d4a5, "jk"), (0x1d4a9, "nopq"), (0x1d4ae, "stuvwxyzabcd"),
   (0x1d4bb, "f"), (0x1d4bd, "hijklmn"), (0x1d507, "defg"), (0x1d50d, "jklmnopq"),
   (0x1d516, "stuvwxy"), (0x1d53b, "defg"), (0x1d540, "ijklm"), (0x1d546, "o"),
   (0x1d54a, "stuvwxy"), (0x1d7ce, "01234567890123456789012345678901234567890123456789"),
   (0x1f12b, "cr"), (0x1fbf0, "0123456789")]

/-- Runs of characters that stand for several of ASCII each, by the first of them. -/
def ligatures : List (Nat × List String) :=
  [(0x132, ["ij", "ij"]), (0x1c7, ["lj", "lj", "lj", "nj", "nj", "nj"]),
   (0x1f1, ["dz", "dz", "dz"]), (0x203c, ["!!"]), (0x2047, ["??", "?!", "!?"]), (0x20a8, ["rs"]),
   (0x2100, ["a/c", "a/s"]), (0x2105, ["c/o", "c/u"]), (0x2116, ["no"]),
   (0x2120, ["sm", "tel", "tm"]), (0x213b, ["fax"]), (0x2161, ["ii", "iii", "iv"]),
   (0x2165, ["vi", "vii", "viii", "ix"]), (0x216a, ["xi", "xii"]), (0x2171, ["ii", "iii", "iv"]),
   (0x2175, ["vi", "vii", "viii", "ix"]), (0x217a, ["xi", "xii"]),
   (0x2469, ["10", "11", "12", "13", "14", "15", "16", "17", "18", "19", "20", "(1)", "(2)",
     "(3)", "(4)", "(5)", "(6)", "(7)", "(8)", "(9)", "(10)", "(11)", "(12)", "(13)", "(14)",
     "(15)", "(16)", "(17)", "(18)", "(19)", "(20)"]),
   (0x249c, ["(a)", "(b)", "(c)", "(d)", "(e)", "(f)", "(g)", "(h)", "(i)", "(j)", "(k)", "(l)",
     "(m)", "(n)", "(o)", "(p)", "(q)", "(r)", "(s)", "(t)", "(u)", "(v)", "(w)", "(x)", "(y)",
     "(z)"]),
   (0x2a74, ["::=", "==", "==="]),
   (0x3250, ["pte", "21", "22", "23", "24", "25", "26", "27", "28", "29", "30", "31", "32", "33",
     "34", "35"]),
   (0x32b1, ["36", "37", "38", "39", "40", "41", "42", "43", "44", "45", "46", "47", "48", "49",
     "50"]),
   (0x32cc, ["hg", "erg", "ev", "ltd"]),
   (0x3371, ["hpa", "da", "au", "bar", "ov", "pc", "dm", "dm2", "dm3", "iu"]),
   (0x3380, ["pa", "na"]), (0x3383, ["ma", "ka", "kb", "mb", "gb", "cal", "kcal", "pf", "nf"]),
   (0x338e, ["mg", "kg", "hz", "khz", "mhz", "ghz", "thz"]),
   (0x3396, ["ml", "dl", "kl", "fm", "nm"]),
   (0x339c, ["mm", "cm", "km", "mm2", "cm2", "m2", "km2", "mm3", "cm3", "m3", "km3"]),
   (0x33a9, ["pa", "kpa", "mpa", "gpa", "rad"]), (0x33b0, ["ps", "ns"]),
   (0x33b3, ["ms", "pv", "nv"]), (0x33b7, ["mv", "kv", "mv", "pw", "nw"]),
   (0x33bd, ["mw", "kw", "mw"]), (0x33c3, ["bq", "cc", "cd"]),
   (0x33c8, ["db", "gy", "ha", "hp", "in", "kk", "km", "kt", "lm", "ln", "log", "lx", "mb", "mil",
     "mol", "ph"]),
   (0x33d9, ["ppm", "pr", "sr", "sv", "wb"]), (0x33ff, ["gal"]),
   (0xfb00, ["ff", "fi", "fl", "ffi", "ffl", "st", "st"]),
   (0x1f101, ["0,", "1,", "2,", "3,", "4,", "5,", "6,", "7,", "8,", "9,"]),
   (0x1f110, ["(a)", "(b)", "(c)", "(d)", "(e)", "(f)", "(g)", "(h)", "(i)", "(j)", "(k)", "(l)",
     "(m)", "(n)", "(o)", "(p)", "(q)", "(r)", "(s)", "(t)", "(u)", "(v)", "(w)", "(x)", "(y)",
     "(z)"]),
   (0x1f12d, ["cd", "wz"]), (0x1f14a, ["hv", "mv", "sd", "ss", "ppv", "wc"]),
   (0x1f16a, ["mc", "md", "mr"]), (0x1f190, ["dj"])]

/-- The first and the last of each run of characters that nobody sees. -/
def unseen : List (Nat × Nat) :=
  [(0xad, 0xad), (0x34f, 0x34f), (0x115f, 0x1160), (0x17b4, 0x17b5), (0x180b, 0x180f),
   (0x200b, 0x200b), (0x2060, 0x2064), (0x206a, 0x206f), (0x3164, 0x3164), (0xfe00, 0xfe0f),
   (0xfeff, 0xfeff), (0xffa0, 0xffa0), (0x1bca0, 0x1bca3), (0x1d173, 0x1d17a), (0xe0100, 0xe01ef)]

/-- A small letter by its place in the alphabet, which starts over after the last one. -/
def letter (place : Nat) : Char := Char.ofNat (97 + place % 26)

/-- The small letter that a character stands for, if it is in a run of letters. -/
def letter? (c : Char) : Option Char :=
  alphabets.findSome? fun (first, place, count) =>
    if first ≤ c.toNat ∧ c.toNat < first + count then some (letter (place + (c.toNat - first)))
    else none

/-- The images of the other runs, each with its first character. -/
def images : List (Nat × List (List Char)) :=
  variants.map (fun (first, run) => (first, run.toList.map fun c => [c])) ++
    ligatures.map fun (first, run) => (first, run.map String.toList)

/-- What a character outside of ASCII stands for, if it is in one of the runs. -/
def image? (c : Char) : Option (List Char) :=
  match letter? c with
  | some l => some [l]
  | none => images.findSome? fun (first, run) =>
    if first ≤ c.toNat then run[c.toNat - first]? else none

/-- Whether nobody sees a character. -/
def isUnseen (c : Char) : Bool :=
  unseen.any fun (first, last) => first ≤ c.toNat && c.toNat ≤ last

/-- What a character of a domain name stands for. -/
def image (c : Char) : List Char :=
  if c.toNat < 128 then [c.toLower]
  else if isUnseen c then []
  else (image? c).getD [c]

/-- A domain name with every character replaced by what it stands for. -/
def mapped (cs : List Char) : List Char := cs.flatMap image

end SessionDirectory.Url.Domain
