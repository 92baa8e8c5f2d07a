import Mockup.Text.Class

namespace Mockup.Text

def charNames : List (Nat × String) :=
  [(0x0, "NULL"), (0x0, "NUL"), (0x1, "START OF HEADING"), (0x1, "SOH"), (0x2, "START OF TEXT"),
   (0x2, "STX"), (0x3, "END OF TEXT"), (0x3, "ETX"), (0x4, "END OF TRANSMISSION"), (0x4, "EOT"),
   (0x5, "ENQUIRY"), (0x5, "ENQ"), (0x6, "ACKNOWLEDGE"), (0x6, "ACK"), (0x7, "ALERT"),
   (0x7, "BEL"), (0x8, "BACKSPACE"), (0x8, "BS"), (0x9, "CHARACTER TABULATION"),
   (0x9, "HORIZONTAL TABULATION"), (0x9, "HT"), (0x9, "TAB"), (0xA, "LINE FEED"),
   (0xA, "NEW LINE"), (0xA, "END OF LINE"), (0xA, "LF"), (0xA, "NL"), (0xA, "EOL"),
   (0xB, "LINE TABULATION"), (0xB, "VERTICAL TABULATION"), (0xB, "VT"), (0xC, "FORM FEED"),
   (0xC, "FF"), (0xD, "CARRIAGE RETURN"), (0xD, "CR"), (0xE, "SHIFT OUT"),
   (0xE, "LOCKING-SHIFT ONE"), (0xE, "SO"), (0xF, "SHIFT IN"), (0xF, "LOCKING-SHIFT ZERO"),
   (0xF, "SI"), (0x10, "DATA LINK ESCAPE"), (0x10, "DLE"), (0x11, "DEVICE CONTROL ONE"),
   (0x11, "DC1"), (0x12, "DEVICE CONTROL TWO"), (0x12, "DC2"), (0x13, "DEVICE CONTROL THREE"),
   (0x13, "DC3"), (0x14, "DEVICE CONTROL FOUR"), (0x14, "DC4"), (0x15, "NEGATIVE ACKNOWLEDGE"),
   (0x15, "NAK"), (0x16, "SYNCHRONOUS IDLE"), (0x16, "SYN"), (0x17, "END OF TRANSMISSION BLOCK"),
   (0x17, "ETB"), (0x18, "CANCEL"), (0x18, "CAN"), (0x19, "END OF MEDIUM"), (0x19, "EOM"),
   (0x1A, "SUBSTITUTE"), (0x1A, "SUB"), (0x1B, "ESCAPE"), (0x1B, "ESC"),
   (0x1C, "INFORMATION SEPARATOR FOUR"), (0x1C, "FILE SEPARATOR"), (0x1C, "FS"),
   (0x1D, "INFORMATION SEPARATOR THREE"), (0x1D, "GROUP SEPARATOR"), (0x1D, "GS"),
   (0x1E, "INFORMATION SEPARATOR TWO"), (0x1E, "RECORD SEPARATOR"), (0x1E, "RS"),
   (0x1F, "INFORMATION SEPARATOR ONE"), (0x1F, "UNIT SEPARATOR"), (0x1F, "US"), (0x20, "SPACE"),
   (0x20, "SP"), (0x21, "EXCLAMATION MARK"), (0x22, "QUOTATION MARK"), (0x23, "NUMBER SIGN"),
   (0x24, "DOLLAR SIGN"), (0x25, "PERCENT SIGN"), (0x26, "AMPERSAND"), (0x27, "APOSTROPHE"),
   (0x28, "LEFT PARENTHESIS"), (0x29, "RIGHT PARENTHESIS"), (0x2A, "ASTERISK"),
   (0x2B, "PLUS SIGN"), (0x2C, "COMMA"), (0x2D, "HYPHEN-MINUS"), (0x2E, "FULL STOP"),
   (0x2F, "SOLIDUS"), (0x3A, "COLON"), (0x3B, "SEMICOLON"), (0x3C, "LESS-THAN SIGN"),
   (0x3D, "EQUALS SIGN"), (0x3E, "GREATER-THAN SIGN"), (0x3F, "QUESTION MARK"),
   (0x40, "COMMERCIAL AT"), (0x5B, "LEFT SQUARE BRACKET"), (0x5C, "REVERSE SOLIDUS"),
   (0x5D, "RIGHT SQUARE BRACKET"), (0x5E, "CIRCUMFLEX ACCENT"), (0x5F, "LOW LINE"),
   (0x60, "GRAVE ACCENT"), (0x7B, "LEFT CURLY BRACKET"), (0x7C, "VERTICAL LINE"),
   (0x7D, "RIGHT CURLY BRACKET"), (0x7E, "TILDE"), (0x7F, "DELETE"), (0x7F, "DEL"),
   (0x85, "NEXT LINE"), (0x85, "NEL"), (0xA0, "NO-BREAK SPACE"), (0xA0, "NBSP"),
   (0xA1, "INVERTED EXCLAMATION MARK"), (0xA2, "CENT SIGN"), (0xA3, "POUND SIGN"),
   (0xA4, "CURRENCY SIGN"), (0xA5, "YEN SIGN"), (0xA6, "BROKEN BAR"), (0xA7, "SECTION SIGN"),
   (0xA8, "DIAERESIS"), (0xA9, "COPYRIGHT SIGN"), (0xAA, "FEMININE ORDINAL INDICATOR"),
   (0xAB, "LEFT-POINTING DOUBLE ANGLE QUOTATION MARK"), (0xAC, "NOT SIGN"), (0xAD, "SOFT HYPHEN"),
   (0xAD, "SHY"), (0xAE, "REGISTERED SIGN"), (0xAF, "MACRON"), (0xB0, "DEGREE SIGN"),
   (0xB1, "PLUS-MINUS SIGN"), (0xB2, "SUPERSCRIPT TWO"), (0xB3, "SUPERSCRIPT THREE"),
   (0xB4, "ACUTE ACCENT"), (0xB5, "MICRO SIGN"), (0xB6, "PILCROW SIGN"), (0xB7, "MIDDLE DOT"),
   (0xB8, "CEDILLA"), (0xB9, "SUPERSCRIPT ONE"), (0xBA, "MASCULINE ORDINAL INDICATOR"),
   (0xBB, "RIGHT-POINTING DOUBLE ANGLE QUOTATION MARK"), (0xBC, "VULGAR FRACTION ONE QUARTER"),
   (0xBD, "VULGAR FRACTION ONE HALF"), (0xBE, "VULGAR FRACTION THREE QUARTERS"),
   (0xBF, "INVERTED QUESTION MARK"), (0xC0, "LATIN CAPITAL LETTER A WITH GRAVE"),
   (0xC1, "LATIN CAPITAL LETTER A WITH ACUTE"), (0xC2, "LATIN CAPITAL LETTER A WITH CIRCUMFLEX"),
   (0xC3, "LATIN CAPITAL LETTER A WITH TILDE"), (0xC4, "LATIN CAPITAL LETTER A WITH DIAERESIS"),
   (0xC5, "LATIN CAPITAL LETTER A WITH RING ABOVE"), (0xC6, "LATIN CAPITAL LETTER AE"),
   (0xC7, "LATIN CAPITAL LETTER C WITH CEDILLA"), (0xC8, "LATIN CAPITAL LETTER E WITH GRAVE"),
   (0xC9, "LATIN CAPITAL LETTER E WITH ACUTE"), (0xCA, "LATIN CAPITAL LETTER E WITH CIRCUMFLEX"),
   (0xCB, "LATIN CAPITAL LETTER E WITH DIAERESIS"), (0xCC, "LATIN CAPITAL LETTER I WITH GRAVE"),
   (0xCD, "LATIN CAPITAL LETTER I WITH ACUTE"), (0xCE, "LATIN CAPITAL LETTER I WITH CIRCUMFLEX"),
   (0xCF, "LATIN CAPITAL LETTER I WITH DIAERESIS"), (0xD0, "LATIN CAPITAL LETTER ETH"),
   (0xD1, "LATIN CAPITAL LETTER N WITH TILDE"), (0xD2, "LATIN CAPITAL LETTER O WITH GRAVE"),
   (0xD3, "LATIN CAPITAL LETTER O WITH ACUTE"), (0xD4, "LATIN CAPITAL LETTER O WITH CIRCUMFLEX"),
   (0xD5, "LATIN CAPITAL LETTER O WITH TILDE"), (0xD6, "LATIN CAPITAL LETTER O WITH DIAERESIS"),
   (0xD7, "MULTIPLICATION SIGN"), (0xD8, "LATIN CAPITAL LETTER O WITH STROKE"),
   (0xD9, "LATIN CAPITAL LETTER U WITH GRAVE"), (0xDA, "LATIN CAPITAL LETTER U WITH ACUTE"),
   (0xDB, "LATIN CAPITAL LETTER U WITH CIRCUMFLEX"),
   (0xDC, "LATIN CAPITAL LETTER U WITH DIAERESIS"), (0xDD, "LATIN CAPITAL LETTER Y WITH ACUTE"),
   (0xDE, "LATIN CAPITAL LETTER THORN"), (0xDF, "LATIN SMALL LETTER SHARP S"),
   (0xE0, "LATIN SMALL LETTER A WITH GRAVE"), (0xE1, "LATIN SMALL LETTER A WITH ACUTE"),
   (0xE2, "LATIN SMALL LETTER A WITH CIRCUMFLEX"), (0xE3, "LATIN SMALL LETTER A WITH TILDE"),
   (0xE4, "LATIN SMALL LETTER A WITH DIAERESIS"), (0xE5, "LATIN SMALL LETTER A WITH RING ABOVE"),
   (0xE6, "LATIN SMALL LETTER AE"), (0xE7, "LATIN SMALL LETTER C WITH CEDILLA"),
   (0xE8, "LATIN SMALL LETTER E WITH GRAVE"), (0xE9, "LATIN SMALL LETTER E WITH ACUTE"),
   (0xEA, "LATIN SMALL LETTER E WITH CIRCUMFLEX"), (0xEB, "LATIN SMALL LETTER E WITH DIAERESIS"),
   (0xEC, "LATIN SMALL LETTER I WITH GRAVE"), (0xED, "LATIN SMALL LETTER I WITH ACUTE"),
   (0xEE, "LATIN SMALL LETTER I WITH CIRCUMFLEX"), (0xEF, "LATIN SMALL LETTER I WITH DIAERESIS"),
   (0xF0, "LATIN SMALL LETTER ETH"), (0xF1, "LATIN SMALL LETTER N WITH TILDE"),
   (0xF2, "LATIN SMALL LETTER O WITH GRAVE"), (0xF3, "LATIN SMALL LETTER O WITH ACUTE"),
   (0xF4, "LATIN SMALL LETTER O WITH CIRCUMFLEX"), (0xF5, "LATIN SMALL LETTER O WITH TILDE"),
   (0xF6, "LATIN SMALL LETTER O WITH DIAERESIS"), (0xF7, "DIVISION SIGN"),
   (0xF8, "LATIN SMALL LETTER O WITH STROKE"), (0xF9, "LATIN SMALL LETTER U WITH GRAVE"),
   (0xFA, "LATIN SMALL LETTER U WITH ACUTE"), (0xFB, "LATIN SMALL LETTER U WITH CIRCUMFLEX"),
   (0xFC, "LATIN SMALL LETTER U WITH DIAERESIS"), (0xFD, "LATIN SMALL LETTER Y WITH ACUTE"),
   (0xFE, "LATIN SMALL LETTER THORN"), (0xFF, "LATIN SMALL LETTER Y WITH DIAERESIS"),
   (0x2000, "EN QUAD"), (0x2001, "EM QUAD"), (0x2002, "EN SPACE"), (0x2003, "EM SPACE"),
   (0x2004, "THREE-PER-EM SPACE"), (0x2005, "FOUR-PER-EM SPACE"), (0x2006, "SIX-PER-EM SPACE"),
   (0x2007, "FIGURE SPACE"), (0x2008, "PUNCTUATION SPACE"), (0x2009, "THIN SPACE"),
   (0x200A, "HAIR SPACE"), (0x200B, "ZERO WIDTH SPACE"), (0x200B, "ZWSP"),
   (0x200C, "ZERO WIDTH NON-JOINER"), (0x200C, "ZWNJ"), (0x200D, "ZERO WIDTH JOINER"),
   (0x200D, "ZWJ"), (0x200E, "LEFT-TO-RIGHT MARK"), (0x200E, "LRM"),
   (0x200F, "RIGHT-TO-LEFT MARK"), (0x200F, "RLM"), (0x2010, "HYPHEN"),
   (0x2011, "NON-BREAKING HYPHEN"), (0x2012, "FIGURE DASH"), (0x2013, "EN DASH"),
   (0x2014, "EM DASH"), (0x2015, "HORIZONTAL BAR"), (0x2016, "DOUBLE VERTICAL LINE"),
   (0x2017, "DOUBLE LOW LINE"), (0x2018, "LEFT SINGLE QUOTATION MARK"),
   (0x2019, "RIGHT SINGLE QUOTATION MARK"), (0x201A, "SINGLE LOW-9 QUOTATION MARK"),
   (0x201B, "SINGLE HIGH-REVERSED-9 QUOTATION MARK"), (0x201C, "LEFT DOUBLE QUOTATION MARK"),
   (0x201D, "RIGHT DOUBLE QUOTATION MARK"), (0x201E, "DOUBLE LOW-9 QUOTATION MARK"),
   (0x201F, "DOUBLE HIGH-REVERSED-9 QUOTATION MARK"), (0x2020, "DAGGER"),
   (0x2021, "DOUBLE DAGGER"), (0x2022, "BULLET"), (0x2023, "TRIANGULAR BULLET"),
   (0x2024, "ONE DOT LEADER"), (0x2025, "TWO DOT LEADER"), (0x2026, "HORIZONTAL ELLIPSIS"),
   (0x2027, "HYPHENATION POINT"), (0x2028, "LINE SEPARATOR"), (0x2029, "PARAGRAPH SEPARATOR"),
   (0x202A, "LEFT-TO-RIGHT EMBEDDING"), (0x202A, "LRE"), (0x202B, "RIGHT-TO-LEFT EMBEDDING"),
   (0x202B, "RLE"), (0x202C, "POP DIRECTIONAL FORMATTING"), (0x202C, "PDF"),
   (0x202D, "LEFT-TO-RIGHT OVERRIDE"), (0x202D, "LRO"), (0x202E, "RIGHT-TO-LEFT OVERRIDE"),
   (0x202E, "RLO"), (0x202F, "NARROW NO-BREAK SPACE"), (0x202F, "NNBSP"),
   (0x2030, "PER MILLE SIGN"), (0x2031, "PER TEN THOUSAND SIGN"), (0x2032, "PRIME"),
   (0x2033, "DOUBLE PRIME"), (0x2034, "TRIPLE PRIME"), (0x2035, "REVERSED PRIME"),
   (0x2036, "REVERSED DOUBLE PRIME"), (0x2037, "REVERSED TRIPLE PRIME"), (0x2038, "CARET"),
   (0x2039, "SINGLE LEFT-POINTING ANGLE QUOTATION MARK"),
   (0x203A, "SINGLE RIGHT-POINTING ANGLE QUOTATION MARK"), (0x203B, "REFERENCE MARK"),
   (0x203C, "DOUBLE EXCLAMATION MARK"), (0x203D, "INTERROBANG"), (0x203E, "OVERLINE"),
   (0x203F, "UNDERTIE"), (0x2040, "CHARACTER TIE"), (0x2041, "CARET INSERTION POINT"),
   (0x2042, "ASTERISM"), (0x2043, "HYPHEN BULLET"), (0x2044, "FRACTION SLASH"),
   (0x2045, "LEFT SQUARE BRACKET WITH QUILL"), (0x2046, "RIGHT SQUARE BRACKET WITH QUILL"),
   (0x2047, "DOUBLE QUESTION MARK"), (0x2048, "QUESTION EXCLAMATION MARK"),
   (0x2049, "EXCLAMATION QUESTION MARK"), (0x204A, "TIRONIAN SIGN ET"),
   (0x204B, "REVERSED PILCROW SIGN"), (0x204C, "BLACK LEFTWARDS BULLET"),
   (0x204D, "BLACK RIGHTWARDS BULLET"), (0x204E, "LOW ASTERISK"), (0x204F, "REVERSED SEMICOLON"),
   (0x2050, "CLOSE UP"), (0x2051, "TWO ASTERISKS ALIGNED VERTICALLY"),
   (0x2052, "COMMERCIAL MINUS SIGN"), (0x2053, "SWUNG DASH"), (0x2054, "INVERTED UNDERTIE"),
   (0x2055, "FLOWER PUNCTUATION MARK"), (0x2056, "THREE DOT PUNCTUATION"),
   (0x2057, "QUADRUPLE PRIME"), (0x2058, "FOUR DOT PUNCTUATION"),
   (0x2059, "FIVE DOT PUNCTUATION"), (0x205A, "TWO DOT PUNCTUATION"), (0x205B, "FOUR DOT MARK"),
   (0x205C, "DOTTED CROSS"), (0x205D, "TRICOLON"), (0x205E, "VERTICAL FOUR DOTS"),
   (0x205F, "MEDIUM MATHEMATICAL SPACE"), (0x205F, "MMSP"), (0x2060, "WORD JOINER"),
   (0x2060, "WJ"), (0x2061, "FUNCTION APPLICATION"), (0x2062, "INVISIBLE TIMES"),
   (0x2063, "INVISIBLE SEPARATOR"), (0x2064, "INVISIBLE PLUS"), (0x2066, "LEFT-TO-RIGHT ISOLATE"),
   (0x2066, "LRI"), (0x2067, "RIGHT-TO-LEFT ISOLATE"), (0x2067, "RLI"),
   (0x2068, "FIRST STRONG ISOLATE"), (0x2068, "FSI"), (0x2069, "POP DIRECTIONAL ISOLATE"),
   (0x2069, "PDI"), (0x206A, "INHIBIT SYMMETRIC SWAPPING"),
   (0x206B, "ACTIVATE SYMMETRIC SWAPPING"), (0x206C, "INHIBIT ARABIC FORM SHAPING"),
   (0x206D, "ACTIVATE ARABIC FORM SHAPING"), (0x206E, "NATIONAL DIGIT SHAPES"),
   (0x206F, "NOMINAL DIGIT SHAPES")]

def digitNames : List String :=
  ["ZERO", "ONE", "TWO", "THREE", "FOUR", "FIVE", "SIX", "SEVEN", "EIGHT", "NINE"]

def codeNamed? (name : String) : Option Nat :=
  match (charNames.find? fun e => e.2 == name).map (·.1) with
  | some n => some n
  | none => (List.range 128).find? fun n =>
    let c := Char.ofNat n
    (c.isUpper && name == "LATIN CAPITAL LETTER " ++ c.toString) ||
      (c.isLower && name == "LATIN SMALL LETTER " ++ c.toUpper.toString) ||
      (c.isDigit && digitNames[n - 48]?.any fun d => name == "DIGIT " ++ d)

end Mockup.Text
