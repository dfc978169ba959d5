/-!
# Locales

How numbers are written in each locale of the Unicode locale data: the sign of a fraction, the
grouping of digits, the minus and the sign between groups.
-/

namespace Verdict

/-- Where the digits of a whole number are separated, counted from the right. -/
inductive Grouping where
  | none
  | thousands
  /-- One group of three, then groups of two. -/
  | indian
  deriving DecidableEq

structure Locale where
  decimal : Char
  grouping : Grouping
  minus : String
  separator : Char
  deriving DecidableEq

namespace Locale

/-- The rows of the locale data: signs, and the names of the locales that have them. -/
def table : List (Locale × List String) := [
  (⟨'\u002e', .thousands, "\u002d", '\u002c'⟩,
    ["ak", "am", "asa", "bem", "bez", "bm", "bo", "bo-IN", "ce", "ceb", "cgg", "chr", "cu",
     "cy", "dav", "ebu", "ee", "ee-TG", "en", "en-001", "en-150", "en-AE", "en-AG", "en-AI",
     "en-AS", "en-AU", "en-BB", "en-BI", "en-BM", "en-BS", "en-BW", "en-BZ", "en-CA", "en-CC",
     "en-CK", "en-CM", "en-CX", "en-CY", "en-DG", "en-DM", "en-ER", "en-FJ", "en-FK", "en-FM",
     "en-GB", "en-GD", "en-GG", "en-GH", "en-GI", "en-GM", "en-GU", "en-GY", "en-HK", "en-IE",
     "en-IL", "en-IM", "en-IO", "en-JE", "en-JM", "en-KE", "en-KI", "en-KN", "en-KY", "en-LC",
     "en-LR", "en-LS", "en-MG", "en-MH", "en-MO", "en-MP", "en-MS", "en-MT", "en-MU", "en-MW",
     "en-MY", "en-NA", "en-NF", "en-NG", "en-NR", "en-NU", "en-NZ", "en-PG", "en-PH", "en-PK",
     "en-PN", "en-PR", "en-PW", "en-RW", "en-SB", "en-SC", "en-SD", "en-SG", "en-SH", "en-SL",
     "en-SS", "en-SX", "en-SZ", "en-TC", "en-TK", "en-TO", "en-TT", "en-TV", "en-TZ", "en-UG",
     "en-UM", "en-VC", "en-VG", "en-VI", "en-VU", "en-WS", "en-ZM", "en-ZW", "es-419", "es-BR",
     "es-BZ", "es-CU", "es-DO", "es-GT", "es-HN", "es-MX", "es-NI", "es-PA", "es-PE", "es-PR",
     "es-SV", "es-US", "fil", "ga", "ga-GB", "gd", "guz", "gv", "ha", "ha-GH", "ha-NE", "haw",
     "ig", "ii", "ja", "jmc", "kam", "kde", "ki", "kln", "kn", "ko", "ko-KP", "kok", "ksb",
     "kw", "lag", "lg", "lkt", "luo", "luy", "mas", "mas-TZ", "mer", "mg", "mgo", "mi", "mn",
     "ms", "ms-SG", "mt", "my", "naq", "nd", "nds", "nds-NL", "nus", "nyn", "om", "om-KE",
     "prg", "qu", "qu-EC", "rof", "root", "rwk", "saq", "sbp", "si", "sn", "so", "so-DJ",
     "so-ET", "so-KE", "sw", "sw-KE", "sw-UG", "ta-MY", "ta-SG", "teo", "teo-KE", "th", "ti",
     "ti-ER", "to", "ug", "vai", "vai-Latn", "vai-Vaii", "vo", "vun", "xog", "yi", "yo",
     "yo-BJ", "yue", "yue-Hans", "yue-Hant", "zh", "zh-Hans", "zh-Hans-HK", "zh-Hans-MO",
     "zh-Hans-SG", "zh-Hant", "zh-Hant-HK", "zh-Hant-MO", "zu"]),
  (⟨'\u002c', .thousands, "\u002d", '\u002e'⟩,
    ["ast", "az", "az-Cyrl", "az-Latn", "bs", "bs-Cyrl", "bs-Latn", "ca", "ca-AD",
     "ca-ES-VALENCIA", "ca-FR", "ca-IT", "da", "da-GL", "de", "de-BE", "de-IT", "de-LU", "dsb",
     "el", "el-CY", "en-AT", "en-BE", "en-DE", "en-DK", "en-NL", "en-SI", "es", "es-AR",
     "es-BO", "es-CL", "es-CO", "es-EA", "es-EC", "es-GQ", "es-IC", "es-PH", "es-PY", "es-UY",
     "es-VE", "fr-LU", "fr-MA", "fur", "fy", "gl", "hr", "hr-BA", "hsb", "ia", "id", "is", "it",
     "it-SM", "it-VA", "jgo", "jv", "kkj", "kl", "km", "ku", "lb", "ln", "ln-AO", "ln-CF",
     "ln-CG", "lo", "lu", "mgh", "mk", "ms-BN", "mua", "nl", "nl-AW", "nl-BE", "nl-BQ", "nl-CW",
     "nl-SR", "nl-SX", "nnh", "pt", "qu-BO", "rn", "ro", "ro-MD", "rw", "seh", "sg", "sr",
     "sr-Cyrl", "sr-Cyrl-BA", "sr-Cyrl-ME", "sr-Cyrl-XK", "sr-Latn", "sr-Latn-BA", "sr-Latn-ME",
     "sr-Latn-XK", "sw-CD", "tr", "tr-CY", "vi", "wo"]),
  (⟨'\u002c', .thousands, "\u002d", '\u00a0'⟩,
    ["af", "af-NA", "agq", "bas", "be", "bg", "br", "cs", "de-AT", "dua", "dyo", "en-FI",
     "en-SE", "en-ZA", "eo", "es-CR", "ewo", "ff", "ff-Latn", "ff-Latn-BF", "ff-Latn-CM",
     "ff-Latn-GH", "ff-Latn-GM", "ff-Latn-GN", "ff-Latn-GW", "ff-Latn-LR", "ff-Latn-MR",
     "ff-Latn-NE", "ff-Latn-NG", "ff-Latn-SL", "fr-CA", "hu", "hy", "ka", "kab", "kea", "kk",
     "ksf", "ky", "lv", "nmg", "os", "os-RU", "pl", "pt-AO", "pt-CH", "pt-CV", "pt-GQ", "pt-GW",
     "pt-LU", "pt-MO", "pt-MZ", "pt-PT", "pt-ST", "pt-TL", "ru", "ru-BY", "ru-KG", "ru-KZ",
     "ru-MD", "ru-UA", "sah", "shi", "shi-Latn", "shi-Tfng", "sk", "smn", "sq", "sq-MK",
     "sq-XK", "tg", "tk", "tt", "tzm", "uk", "uz", "uz-Cyrl", "uz-Latn", "yav", "zgh"]),
  (⟨'\u002c', .thousands, "\u002d", '\u202f'⟩,
    ["fr", "fr-BE", "fr-BF", "fr-BI", "fr-BJ", "fr-BL", "fr-CD", "fr-CF", "fr-CG", "fr-CH",
     "fr-CI", "fr-CM", "fr-DJ", "fr-DZ", "fr-GA", "fr-GF", "fr-GN", "fr-GP", "fr-GQ", "fr-HT",
     "fr-KM", "fr-MC", "fr-MF", "fr-MG", "fr-ML", "fr-MQ", "fr-MR", "fr-MU", "fr-NC", "fr-NE",
     "fr-PF", "fr-PM", "fr-RE", "fr-RW", "fr-SC", "fr-SN", "fr-SY", "fr-TD", "fr-TG", "fr-TN",
     "fr-VU", "fr-WF", "fr-YT"]),
  (⟨'\u066b', .thousands, "\u061c\u002d", '\u066c'⟩,
    ["ar", "ar-AE", "ar-BH", "ar-DJ", "ar-EG", "ar-ER", "ar-IL", "ar-IQ", "ar-JO", "ar-KM",
     "ar-KW", "ar-LB", "ar-MR", "ar-OM", "ar-PS", "ar-QA", "ar-SA", "ar-SD", "ar-SO", "ar-SS",
     "ar-SY", "ar-TD", "ar-YE", "sd"]),
  (⟨'\u002e', .indian, "\u002d", '\u002c'⟩,
    ["as", "bn", "bn-IN", "brx", "ccp", "ccp-IN", "dz", "en-IN", "gu", "hi", "ml", "mr", "ne",
     "ne-IN", "or", "pa", "pa-Guru", "ta", "ta-LK", "te"]),
  (⟨'\u002c', .thousands, "\u2212", '\u00a0'⟩,
    ["et", "fi", "ksh", "lt", "nb", "nb-SJ", "nn", "se", "se-FI", "se-SE", "sv", "sv-AX",
     "sv-FI"]),
  (⟨'\u066b', .thousands, "\u200e\u002d\u200e", '\u066c'⟩,
    ["lrc", "lrc-IQ", "mzn", "pa-Arab", "ps", "ps-PK", "ur-IN", "uz-Arab"]),
  (⟨'\u002e', .thousands, "\u002d", '\u00a0'⟩,
    ["dje", "khq", "mfe", "ses", "twq", "xh"]),
  (⟨'\u002c', .thousands, "\u200e\u002d", '\u002e'⟩,
    ["ar-DZ", "ar-LY", "ar-MA", "ar-TN"]),
  (⟨'\u002e', .thousands, "\u002d", '\u2019'⟩,
    ["de-CH", "de-LI", "en-CH", "it-CH"]),
  (⟨'\u002c', .thousands, "\u2212", '\u002e'⟩,
    ["eu", "fo", "fo-DK", "sl"]),
  (⟨'\u002e', .thousands, "\u2212", '\u2019'⟩,
    ["gsw", "gsw-FR", "gsw-LI", "rm"]),
  (⟨'\u002e', .thousands, "\u200e\u002d", '\u002c'⟩,
    ["ar-EH", "he", "ur"]),
  (⟨'\u066b', .thousands, "\u200f\u002d", '\u066c'⟩,
    ["ckb", "ckb-IR"]),
  (⟨'\u066b', .thousands, "\u200e\u2212", '\u066c'⟩,
    ["fa", "fa-AF"]),
  (⟨'\u002e', .none, "\u002d", '\u002c'⟩,
    ["en-US-POSIX"]),
  (⟨'\u066b', .indian, "\u200e\u002d\u200e", '\u066c'⟩,
    ["ks"]),
  (⟨'\u002c', .thousands, "\u002d", '\u2019'⟩,
    ["wae"])]

def english : Locale := ⟨'.', .thousands, "-", ','⟩

def ofName? (name : String) : Option Locale :=
  (table.find? fun row => row.2.contains name).map (·.1)

/-- The locale of a name, else the one of its language, else English. Underscores count as
hyphens. -/
def resolve (name : String) : Locale :=
  let cs := name.toList.map fun c => if c == '_' then '-' else c
  let language := cs.takeWhile (· != '-')
  (ofName? (String.ofList cs) <|> ofName? (String.ofList language)).getD english

end Locale

end Verdict
