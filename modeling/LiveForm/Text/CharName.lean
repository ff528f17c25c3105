import LiveForm.Text.Ranges

/-!
# Characters by name

Some characters are known by their names in Unicode: those of ASCII and Latin-1, Greek letters, and
common punctuation, signs and blanks. Names are looked up without regard to case. Names of other
characters are not known here.
-/

namespace LiveForm.Text

private def asciiNames : List String :=
  ["SPACE", "EXCLAMATION MARK", "QUOTATION MARK", "NUMBER SIGN", "DOLLAR SIGN", "PERCENT SIGN",
   "AMPERSAND", "APOSTROPHE", "LEFT PARENTHESIS", "RIGHT PARENTHESIS", "ASTERISK", "PLUS SIGN",
   "COMMA", "HYPHEN-MINUS", "FULL STOP", "SOLIDUS", "DIGIT ZERO", "DIGIT ONE", "DIGIT TWO",
   "DIGIT THREE", "DIGIT FOUR", "DIGIT FIVE", "DIGIT SIX", "DIGIT SEVEN", "DIGIT EIGHT",
   "DIGIT NINE", "COLON", "SEMICOLON", "LESS-THAN SIGN", "EQUALS SIGN", "GREATER-THAN SIGN",
   "QUESTION MARK", "COMMERCIAL AT", "LATIN CAPITAL LETTER A", "LATIN CAPITAL LETTER B",
   "LATIN CAPITAL LETTER C", "LATIN CAPITAL LETTER D", "LATIN CAPITAL LETTER E",
   "LATIN CAPITAL LETTER F", "LATIN CAPITAL LETTER G", "LATIN CAPITAL LETTER H",
   "LATIN CAPITAL LETTER I", "LATIN CAPITAL LETTER J", "LATIN CAPITAL LETTER K",
   "LATIN CAPITAL LETTER L", "LATIN CAPITAL LETTER M", "LATIN CAPITAL LETTER N",
   "LATIN CAPITAL LETTER O", "LATIN CAPITAL LETTER P", "LATIN CAPITAL LETTER Q",
   "LATIN CAPITAL LETTER R", "LATIN CAPITAL LETTER S", "LATIN CAPITAL LETTER T",
   "LATIN CAPITAL LETTER U", "LATIN CAPITAL LETTER V", "LATIN CAPITAL LETTER W",
   "LATIN CAPITAL LETTER X", "LATIN CAPITAL LETTER Y", "LATIN CAPITAL LETTER Z",
   "LEFT SQUARE BRACKET", "REVERSE SOLIDUS", "RIGHT SQUARE BRACKET", "CIRCUMFLEX ACCENT",
   "LOW LINE", "GRAVE ACCENT", "LATIN SMALL LETTER A", "LATIN SMALL LETTER B",
   "LATIN SMALL LETTER C", "LATIN SMALL LETTER D", "LATIN SMALL LETTER E",
   "LATIN SMALL LETTER F", "LATIN SMALL LETTER G", "LATIN SMALL LETTER H",
   "LATIN SMALL LETTER I", "LATIN SMALL LETTER J", "LATIN SMALL LETTER K",
   "LATIN SMALL LETTER L", "LATIN SMALL LETTER M", "LATIN SMALL LETTER N",
   "LATIN SMALL LETTER O", "LATIN SMALL LETTER P", "LATIN SMALL LETTER Q",
   "LATIN SMALL LETTER R", "LATIN SMALL LETTER S", "LATIN SMALL LETTER T",
   "LATIN SMALL LETTER U", "LATIN SMALL LETTER V", "LATIN SMALL LETTER W",
   "LATIN SMALL LETTER X", "LATIN SMALL LETTER Y", "LATIN SMALL LETTER Z", "LEFT CURLY BRACKET",
   "VERTICAL LINE", "RIGHT CURLY BRACKET", "TILDE"]

private def latinNames : List String :=
  ["NO-BREAK SPACE", "INVERTED EXCLAMATION MARK", "CENT SIGN", "POUND SIGN", "CURRENCY SIGN",
   "YEN SIGN", "BROKEN BAR", "SECTION SIGN", "DIAERESIS", "COPYRIGHT SIGN",
   "FEMININE ORDINAL INDICATOR", "LEFT-POINTING DOUBLE ANGLE QUOTATION MARK", "NOT SIGN",
   "SOFT HYPHEN", "REGISTERED SIGN", "MACRON", "DEGREE SIGN", "PLUS-MINUS SIGN",
   "SUPERSCRIPT TWO", "SUPERSCRIPT THREE", "ACUTE ACCENT", "MICRO SIGN", "PILCROW SIGN",
   "MIDDLE DOT", "CEDILLA", "SUPERSCRIPT ONE", "MASCULINE ORDINAL INDICATOR",
   "RIGHT-POINTING DOUBLE ANGLE QUOTATION MARK", "VULGAR FRACTION ONE QUARTER",
   "VULGAR FRACTION ONE HALF", "VULGAR FRACTION THREE QUARTERS", "INVERTED QUESTION MARK",
   "LATIN CAPITAL LETTER A WITH GRAVE", "LATIN CAPITAL LETTER A WITH ACUTE",
   "LATIN CAPITAL LETTER A WITH CIRCUMFLEX", "LATIN CAPITAL LETTER A WITH TILDE",
   "LATIN CAPITAL LETTER A WITH DIAERESIS", "LATIN CAPITAL LETTER A WITH RING ABOVE",
   "LATIN CAPITAL LETTER AE", "LATIN CAPITAL LETTER C WITH CEDILLA",
   "LATIN CAPITAL LETTER E WITH GRAVE", "LATIN CAPITAL LETTER E WITH ACUTE",
   "LATIN CAPITAL LETTER E WITH CIRCUMFLEX", "LATIN CAPITAL LETTER E WITH DIAERESIS",
   "LATIN CAPITAL LETTER I WITH GRAVE", "LATIN CAPITAL LETTER I WITH ACUTE",
   "LATIN CAPITAL LETTER I WITH CIRCUMFLEX", "LATIN CAPITAL LETTER I WITH DIAERESIS",
   "LATIN CAPITAL LETTER ETH", "LATIN CAPITAL LETTER N WITH TILDE",
   "LATIN CAPITAL LETTER O WITH GRAVE", "LATIN CAPITAL LETTER O WITH ACUTE",
   "LATIN CAPITAL LETTER O WITH CIRCUMFLEX", "LATIN CAPITAL LETTER O WITH TILDE",
   "LATIN CAPITAL LETTER O WITH DIAERESIS", "MULTIPLICATION SIGN",
   "LATIN CAPITAL LETTER O WITH STROKE", "LATIN CAPITAL LETTER U WITH GRAVE",
   "LATIN CAPITAL LETTER U WITH ACUTE", "LATIN CAPITAL LETTER U WITH CIRCUMFLEX",
   "LATIN CAPITAL LETTER U WITH DIAERESIS", "LATIN CAPITAL LETTER Y WITH ACUTE",
   "LATIN CAPITAL LETTER THORN", "LATIN SMALL LETTER SHARP S", "LATIN SMALL LETTER A WITH GRAVE",
   "LATIN SMALL LETTER A WITH ACUTE", "LATIN SMALL LETTER A WITH CIRCUMFLEX",
   "LATIN SMALL LETTER A WITH TILDE", "LATIN SMALL LETTER A WITH DIAERESIS",
   "LATIN SMALL LETTER A WITH RING ABOVE", "LATIN SMALL LETTER AE",
   "LATIN SMALL LETTER C WITH CEDILLA", "LATIN SMALL LETTER E WITH GRAVE",
   "LATIN SMALL LETTER E WITH ACUTE", "LATIN SMALL LETTER E WITH CIRCUMFLEX",
   "LATIN SMALL LETTER E WITH DIAERESIS", "LATIN SMALL LETTER I WITH GRAVE",
   "LATIN SMALL LETTER I WITH ACUTE", "LATIN SMALL LETTER I WITH CIRCUMFLEX",
   "LATIN SMALL LETTER I WITH DIAERESIS", "LATIN SMALL LETTER ETH",
   "LATIN SMALL LETTER N WITH TILDE", "LATIN SMALL LETTER O WITH GRAVE",
   "LATIN SMALL LETTER O WITH ACUTE", "LATIN SMALL LETTER O WITH CIRCUMFLEX",
   "LATIN SMALL LETTER O WITH TILDE", "LATIN SMALL LETTER O WITH DIAERESIS", "DIVISION SIGN",
   "LATIN SMALL LETTER O WITH STROKE", "LATIN SMALL LETTER U WITH GRAVE",
   "LATIN SMALL LETTER U WITH ACUTE", "LATIN SMALL LETTER U WITH CIRCUMFLEX",
   "LATIN SMALL LETTER U WITH DIAERESIS", "LATIN SMALL LETTER Y WITH ACUTE",
   "LATIN SMALL LETTER THORN", "LATIN SMALL LETTER Y WITH DIAERESIS"]

private def greekCapitals : List String :=
  ["GREEK CAPITAL LETTER ALPHA", "GREEK CAPITAL LETTER BETA", "GREEK CAPITAL LETTER GAMMA",
   "GREEK CAPITAL LETTER DELTA", "GREEK CAPITAL LETTER EPSILON", "GREEK CAPITAL LETTER ZETA",
   "GREEK CAPITAL LETTER ETA", "GREEK CAPITAL LETTER THETA", "GREEK CAPITAL LETTER IOTA",
   "GREEK CAPITAL LETTER KAPPA", "GREEK CAPITAL LETTER LAMDA", "GREEK CAPITAL LETTER MU",
   "GREEK CAPITAL LETTER NU", "GREEK CAPITAL LETTER XI", "GREEK CAPITAL LETTER OMICRON",
   "GREEK CAPITAL LETTER PI", "GREEK CAPITAL LETTER RHO"]

private def greekSigmaOn : List String :=
  ["GREEK CAPITAL LETTER SIGMA", "GREEK CAPITAL LETTER TAU", "GREEK CAPITAL LETTER UPSILON",
   "GREEK CAPITAL LETTER PHI", "GREEK CAPITAL LETTER CHI", "GREEK CAPITAL LETTER PSI",
   "GREEK CAPITAL LETTER OMEGA"]

private def greekSmall : List String :=
  ["GREEK SMALL LETTER ALPHA", "GREEK SMALL LETTER BETA", "GREEK SMALL LETTER GAMMA",
   "GREEK SMALL LETTER DELTA", "GREEK SMALL LETTER EPSILON", "GREEK SMALL LETTER ZETA",
   "GREEK SMALL LETTER ETA", "GREEK SMALL LETTER THETA", "GREEK SMALL LETTER IOTA",
   "GREEK SMALL LETTER KAPPA", "GREEK SMALL LETTER LAMDA", "GREEK SMALL LETTER MU",
   "GREEK SMALL LETTER NU", "GREEK SMALL LETTER XI", "GREEK SMALL LETTER OMICRON",
   "GREEK SMALL LETTER PI", "GREEK SMALL LETTER RHO", "GREEK SMALL LETTER FINAL SIGMA",
   "GREEK SMALL LETTER SIGMA", "GREEK SMALL LETTER TAU", "GREEK SMALL LETTER UPSILON",
   "GREEK SMALL LETTER PHI", "GREEK SMALL LETTER CHI", "GREEK SMALL LETTER PSI",
   "GREEK SMALL LETTER OMEGA"]

private def punctuationNames : List String :=
  ["HYPHEN", "NON-BREAKING HYPHEN", "FIGURE DASH", "EN DASH", "EM DASH", "HORIZONTAL BAR",
   "DOUBLE VERTICAL LINE", "DOUBLE LOW LINE", "LEFT SINGLE QUOTATION MARK",
   "RIGHT SINGLE QUOTATION MARK", "SINGLE LOW-9 QUOTATION MARK",
   "SINGLE HIGH-REVERSED-9 QUOTATION MARK", "LEFT DOUBLE QUOTATION MARK",
   "RIGHT DOUBLE QUOTATION MARK", "DOUBLE LOW-9 QUOTATION MARK",
   "DOUBLE HIGH-REVERSED-9 QUOTATION MARK", "DAGGER", "DOUBLE DAGGER", "BULLET",
   "TRIANGULAR BULLET", "ONE DOT LEADER", "TWO DOT LEADER", "HORIZONTAL ELLIPSIS",
   "HYPHENATION POINT"]

private def markNames : List String :=
  ["PER MILLE SIGN", "PER TEN THOUSAND SIGN", "PRIME", "DOUBLE PRIME", "TRIPLE PRIME",
   "REVERSED PRIME", "REVERSED DOUBLE PRIME", "REVERSED TRIPLE PRIME", "CARET",
   "SINGLE LEFT-POINTING ANGLE QUOTATION MARK", "SINGLE RIGHT-POINTING ANGLE QUOTATION MARK"]

private def euroName : List String :=
  ["EURO SIGN"]

private def tradeName : List String :=
  ["TRADE MARK SIGN"]

private def arrowNames : List String :=
  ["LEFTWARDS ARROW", "UPWARDS ARROW", "RIGHTWARDS ARROW", "DOWNWARDS ARROW"]

private def relationNames : List String :=
  ["NOT EQUAL TO", "IDENTICAL TO", "NOT IDENTICAL TO", "STRICTLY EQUIVALENT TO",
   "LESS-THAN OR EQUAL TO", "GREATER-THAN OR EQUAL TO"]

/-- Runs of characters by their first code point, with the name of each. -/
def namedRuns : List (Nat × List String) :=
  [(0x20, asciiNames), (0xa0, latinNames), (0x391, greekCapitals), (0x3a3, greekSigmaOn), (0x3b1,
   greekSmall), (0x2010, punctuationNames), (0x2030, markNames), (0x20ac, euroName), (0x2122,
   tradeName), (0x2190, arrowNames), (0x2260, relationNames)]

/-- The names of characters that cannot be seen. -/
def hiddenNames : List (String × Nat) :=
  [("NULL", 0x0), ("ALERT", 0x7), ("BACKSPACE", 0x8), ("CHARACTER TABULATION", 0x9), ("TAB", 0x9),
   ("HORIZONTAL TABULATION", 0x9), ("LINE FEED", 0xa), ("NEW LINE", 0xa), ("LINE TABULATION", 0xb),
   ("VERTICAL TABULATION", 0xb), ("FORM FEED", 0xc), ("CARRIAGE RETURN", 0xd), ("ESCAPE", 0x1b),
   ("DELETE", 0x7f), ("NEXT LINE", 0x85), ("NUL", 0x0), ("BEL", 0x7), ("BS", 0x8), ("HT", 0x9),
   ("LF", 0xa), ("NL", 0xa), ("VT", 0xb), ("FF", 0xc), ("CR", 0xd), ("ESC", 0x1b), ("DEL", 0x7f),
   ("NBSP", 0xa0), ("SHY", 0xad), ("ZWSP", 0x200b), ("BOM", 0xfeff), ("ZERO WIDTH SPACE", 0x200b),
   ("LINE SEPARATOR", 0x2028), ("PARAGRAPH SEPARATOR", 0x2029),
   ("ZERO WIDTH NO-BREAK SPACE", 0xfeff)]

/-- The names of a few characters that stand among others. -/
def scatteredNames : List (String × Nat) :=
  [("SNOWMAN", 0x2603), ("BLACK STAR", 0x2605), ("WHITE STAR", 0x2606), ("CHECK MARK", 0x2713),
   ("BALLOT X", 0x2717), ("BLACK HEART SUIT", 0x2665), ("HEAVY BLACK HEART", 0x2764),
   ("SPARKLES", 0x2728), ("INFINITY", 0x221e), ("SQUARE ROOT", 0x221a), ("ALMOST EQUAL TO", 0x2248),
   ("KELVIN SIGN", 0x212a), ("ANGSTROM SIGN", 0x212b), ("OHM SIGN", 0x2126),
   ("DOUBLE-STRUCK CAPITAL C", 0x2102), ("LATIN CAPITAL LETTER I WITH DOT ABOVE", 0x130),
   ("LATIN SMALL LETTER DOTLESS I", 0x131), ("LATIN SMALL LETTER LONG S", 0x17f),
   ("LATIN CAPITAL LETTER SHARP S", 0x1e9e), ("LATIN CAPITAL LIGATURE OE", 0x152),
   ("LATIN SMALL LIGATURE OE", 0x153), ("LATIN CAPITAL LETTER S WITH CARON", 0x160),
   ("LATIN SMALL LETTER S WITH CARON", 0x161), ("LATIN CAPITAL LETTER Y WITH DIAERESIS", 0x178),
   ("LATIN SMALL LETTER F WITH HOOK", 0x192), ("LATIN SMALL LIGATURE FI", 0xfb01),
   ("CYRILLIC CAPITAL LETTER A", 0x410), ("CYRILLIC SMALL LETTER A", 0x430),
   ("CYRILLIC CAPITAL LETTER YA", 0x42f), ("CYRILLIC SMALL LETTER YA", 0x44f),
   ("COMBINING GRAVE ACCENT", 0x300), ("COMBINING ACUTE ACCENT", 0x301),
   ("COMBINING DIAERESIS", 0x308), ("ARABIC-INDIC DIGIT ZERO", 0x660),
   ("ARABIC-INDIC DIGIT ONE", 0x661), ("ARABIC-INDIC DIGIT FIVE", 0x665),
   ("DEVANAGARI DIGIT ZERO", 0x966), ("DEVANAGARI DIGIT ONE", 0x967),
   ("FULLWIDTH DIGIT ONE", 0xff11), ("FULLWIDTH LATIN CAPITAL LETTER A", 0xff21),
   ("FULLWIDTH LATIN SMALL LETTER A", 0xff41), ("IDEOGRAPHIC SPACE", 0x3000), ("EN SPACE", 0x2002),
   ("EM SPACE", 0x2003), ("THIN SPACE", 0x2009), ("HAIR SPACE", 0x200a),
   ("NARROW NO-BREAK SPACE", 0x202f), ("OGHAM SPACE MARK", 0x1680),
   ("ZERO WIDTH NON-JOINER", 0x200c), ("ZERO WIDTH JOINER", 0x200d), ("WORD JOINER", 0x2060),
   ("LEFT-TO-RIGHT MARK", 0x200e), ("RIGHT-TO-LEFT MARK", 0x200f),
   ("REPLACEMENT CHARACTER", 0xfffd), ("GRINNING FACE", 0x1f600),
   ("SMILING FACE WITH OPEN MOUTH", 0x1f603), ("FACE WITH TEARS OF JOY", 0x1f602),
   ("PILE OF POO", 0x1f4a9), ("FIRE", 0x1f525), ("THUMBS UP SIGN", 0x1f44d), ("ROCKET", 0x1f680),
   ("PARTY POPPER", 0x1f389)]

/-- The place of a name in a list. -/
def placeOf (name : String) : List String → Option Nat
  | [] => none
  | n :: rest => if n == name then some 0 else (placeOf name rest).map (· + 1)

/-- The code point of the character of a name. -/
def named? (name : String) : Option Nat :=
  let name := String.ofList (name.toList.map Char.toUpper)
  match namedRuns.findSome? fun run => (placeOf name run.2).map (run.1 + ·) with
  | some n => some n
  | none => (hiddenNames.lookup name).or (scatteredNames.lookup name)

end LiveForm.Text
