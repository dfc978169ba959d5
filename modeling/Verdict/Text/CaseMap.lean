import Verdict.Text.CharSet

/-!
# Case mappings

The full case mappings of single characters in version 17.0 of the Unicode standard. A run maps
every character from its first to its last, in steps, by one distance.
-/

namespace Verdict.Text

/-- Characters `first`, `first + step`, … `last`, each mapped to the one at `distance`. -/
structure CaseRun where
  first : Nat
  last : Nat
  step : Nat
  distance : Int

namespace CaseRun

private def signedDecimal : List Char → Int
  | '-' :: ds => -(Nat.ofDigitChars 10 ds 0 : Int)
  | ds => Nat.ofDigitChars 10 ds 0

private def read? (cs : List Char) : Option CaseRun :=
  match cs.splitOn ':' with
  | [a, b, c, d] =>
    some ⟨CharSet.hexOf a, CharSet.hexOf b, Nat.ofDigitChars 10 c 0, signedDecimal d⟩
  | _ => none

def ofTable (rows : List String) : List CaseRun :=
  (entries rows).filterMap read?

def points (r : CaseRun) : List Nat :=
  (List.range ((r.last - r.first) / r.step + 1)).map fun i => r.first + i * r.step

def image (r : CaseRun) (n : Nat) : Nat :=
  (n + r.distance).toNat

private def maps (r : CaseRun) (n : Nat) : Bool :=
  r.first ≤ n && n ≤ r.last && (n - r.first) % r.step == 0

private def apply (rs : List CaseRun) (c : Char) : Char :=
  match rs.find? (·.maps c.toNat) with
  | some r => Char.ofNat (r.image c.toNat)
  | none => c

end CaseRun

namespace CaseMap

private def upperRuns : List CaseRun := CaseRun.ofTable
  ["61:7A:1:-32 B5:B5:1:743 E0:F6:1:-32 F8:FE:1:-32 FF:FF:1:121 101:12F:2:-1 131:131:1:-232",
   "133:137:2:-1 13A:148:2:-1 14B:177:2:-1 17A:17E:2:-1 17F:17F:1:-300 180:180:1:195",
   "183:185:2:-1 188:188:1:-1 18C:18C:1:-1 192:192:1:-1 195:195:1:97 199:199:1:-1 19A:19A:1:163",
   "19B:19B:1:42561 19E:19E:1:130 1A1:1A5:2:-1 1A8:1A8:1:-1 1AD:1AD:1:-1 1B0:1B0:1:-1",
   "1B4:1B6:2:-1 1B9:1B9:1:-1 1BD:1BD:1:-1 1BF:1BF:1:56 1C5:1C5:1:-1 1C6:1C6:1:-2 1C8:1C8:1:-1",
   "1C9:1C9:1:-2 1CB:1CB:1:-1 1CC:1CC:1:-2 1CE:1DC:2:-1 1DD:1DD:1:-79 1DF:1EF:2:-1 1F2:1F2:1:-1",
   "1F3:1F3:1:-2 1F5:1F5:1:-1 1F9:21F:2:-1 223:233:2:-1 23C:23C:1:-1 23F:240:1:10815",
   "242:242:1:-1 247:24F:2:-1 250:250:1:10783 251:251:1:10780 252:252:1:10782 253:253:1:-210",
   "254:254:1:-206 256:257:1:-205 259:259:1:-202 25B:25B:1:-203 25C:25C:1:42319 260:260:1:-205",
   "261:261:1:42315 263:263:1:-207 264:264:1:42343 265:265:1:42280 266:266:1:42308",
   "268:268:1:-209 269:269:1:-211 26A:26A:1:42308 26B:26B:1:10743 26C:26C:1:42305",
   "26F:26F:1:-211 271:271:1:10749 272:272:1:-213 275:275:1:-214 27D:27D:1:10727 280:280:1:-218",
   "282:282:1:42307 283:283:1:-218 287:287:1:42282 288:288:1:-218 289:289:1:-69 28A:28B:1:-217",
   "28C:28C:1:-71 292:292:1:-219 29D:29D:1:42261 29E:29E:1:42258 345:345:1:84 371:373:2:-1",
   "377:377:1:-1 37B:37D:1:130 3AC:3AC:1:-38 3AD:3AF:1:-37 3B1:3C1:1:-32 3C2:3C2:1:-31",
   "3C3:3CB:1:-32 3CC:3CC:1:-64 3CD:3CE:1:-63 3D0:3D0:1:-62 3D1:3D1:1:-57 3D5:3D5:1:-47",
   "3D6:3D6:1:-54 3D7:3D7:1:-8 3D9:3EF:2:-1 3F0:3F0:1:-86 3F1:3F1:1:-80 3F2:3F2:1:7",
   "3F3:3F3:1:-116 3F5:3F5:1:-96 3F8:3F8:1:-1 3FB:3FB:1:-1 430:44F:1:-32 450:45F:1:-80",
   "461:481:2:-1 48B:4BF:2:-1 4C2:4CE:2:-1 4CF:4CF:1:-15 4D1:52F:2:-1 561:586:1:-48",
   "10D0:10FA:1:3008 10FD:10FF:1:3008 13F8:13FD:1:-8 1C80:1C80:1:-6254 1C81:1C81:1:-6253",
   "1C82:1C82:1:-6244 1C83:1C84:1:-6242 1C85:1C85:1:-6243 1C86:1C86:1:-6236 1C87:1C87:1:-6181",
   "1C88:1C88:1:35266 1C8A:1C8A:1:-1 1D79:1D79:1:35332 1D7D:1D7D:1:3814 1D8E:1D8E:1:35384",
   "1E01:1E95:2:-1 1E9B:1E9B:1:-59 1EA1:1EFF:2:-1 1F00:1F07:1:8 1F10:1F15:1:8 1F20:1F27:1:8",
   "1F30:1F37:1:8 1F40:1F45:1:8 1F51:1F57:2:8 1F60:1F67:1:8 1F70:1F71:1:74 1F72:1F75:1:86",
   "1F76:1F77:1:100 1F78:1F79:1:128 1F7A:1F7B:1:112 1F7C:1F7D:1:126 1FB0:1FB1:1:8",
   "1FBE:1FBE:1:-7205 1FD0:1FD1:1:8 1FE0:1FE1:1:8 1FE5:1FE5:1:7 214E:214E:1:-28 2170:217F:1:-16",
   "2184:2184:1:-1 24D0:24E9:1:-26 2C30:2C5F:1:-48 2C61:2C61:1:-1 2C65:2C65:1:-10795",
   "2C66:2C66:1:-10792 2C68:2C6C:2:-1 2C73:2C73:1:-1 2C76:2C76:1:-1 2C81:2CE3:2:-1",
   "2CEC:2CEE:2:-1 2CF3:2CF3:1:-1 2D00:2D25:1:-7264 2D27:2D27:1:-7264 2D2D:2D2D:1:-7264",
   "A641:A66D:2:-1 A681:A69B:2:-1 A723:A72F:2:-1 A733:A76F:2:-1 A77A:A77C:2:-1 A77F:A787:2:-1",
   "A78C:A78C:1:-1 A791:A793:2:-1 A794:A794:1:48 A797:A7A9:2:-1 A7B5:A7C3:2:-1 A7C8:A7CA:2:-1",
   "A7CD:A7DB:2:-1 A7F6:A7F6:1:-1 AB53:AB53:1:-928 AB70:ABBF:1:-38864 FF41:FF5A:1:-32",
   "10428:1044F:1:-40 104D8:104FB:1:-40 10597:105BB:2:-39 10598:105A0:2:-39 105A4:105B0:2:-39",
   "105B4:105B8:2:-39 105BC:105BC:1:-39 10CC0:10CF2:1:-64 10D70:10D85:1:-32 118C0:118DF:1:-32",
   "16E60:16E7F:1:-32 16EBB:16ED3:1:-27 1E922:1E943:1:-34"]

private def lowerRuns : List CaseRun := CaseRun.ofTable
  ["41:5A:1:32 C0:D6:1:32 D8:DE:1:32 100:12E:2:1 132:136:2:1 139:147:2:1 14A:176:2:1",
   "178:178:1:-121 179:17D:2:1 181:181:1:210 182:184:2:1 186:186:1:206 187:187:1:1",
   "189:18A:1:205 18B:18B:1:1 18E:18E:1:79 18F:18F:1:202 190:190:1:203 191:191:1:1",
   "193:193:1:205 194:194:1:207 196:196:1:211 197:197:1:209 198:198:1:1 19C:19C:1:211",
   "19D:19D:1:213 19F:19F:1:214 1A0:1A4:2:1 1A6:1A6:1:218 1A7:1A7:1:1 1A9:1A9:1:218 1AC:1AC:1:1",
   "1AE:1AE:1:218 1AF:1AF:1:1 1B1:1B2:1:217 1B3:1B5:2:1 1B7:1B7:1:219 1B8:1B8:1:1 1BC:1BC:1:1",
   "1C4:1C4:1:2 1C5:1C5:1:1 1C7:1C7:1:2 1C8:1C8:1:1 1CA:1CA:1:2 1CB:1DB:2:1 1DE:1EE:2:1",
   "1F1:1F1:1:2 1F2:1F4:2:1 1F6:1F6:1:-97 1F7:1F7:1:-56 1F8:21E:2:1 220:220:1:-130 222:232:2:1",
   "23A:23A:1:10795 23B:23B:1:1 23D:23D:1:-163 23E:23E:1:10792 241:241:1:1 243:243:1:-195",
   "244:244:1:69 245:245:1:71 246:24E:2:1 370:372:2:1 376:376:1:1 37F:37F:1:116 386:386:1:38",
   "388:38A:1:37 38C:38C:1:64 38E:38F:1:63 391:3A1:1:32 3A3:3AB:1:32 3CF:3CF:1:8 3D8:3EE:2:1",
   "3F4:3F4:1:-60 3F7:3F7:1:1 3F9:3F9:1:-7 3FA:3FA:1:1 3FD:3FF:1:-130 400:40F:1:80 410:42F:1:32",
   "460:480:2:1 48A:4BE:2:1 4C0:4C0:1:15 4C1:4CD:2:1 4D0:52E:2:1 531:556:1:48 10A0:10C5:1:7264",
   "10C7:10C7:1:7264 10CD:10CD:1:7264 13A0:13EF:1:38864 13F0:13F5:1:8 1C89:1C89:1:1",
   "1C90:1CBA:1:-3008 1CBD:1CBF:1:-3008 1E00:1E94:2:1 1E9E:1E9E:1:-7615 1EA0:1EFE:2:1",
   "1F08:1F0F:1:-8 1F18:1F1D:1:-8 1F28:1F2F:1:-8 1F38:1F3F:1:-8 1F48:1F4D:1:-8 1F59:1F5F:2:-8",
   "1F68:1F6F:1:-8 1F88:1F8F:1:-8 1F98:1F9F:1:-8 1FA8:1FAF:1:-8 1FB8:1FB9:1:-8 1FBA:1FBB:1:-74",
   "1FBC:1FBC:1:-9 1FC8:1FCB:1:-86 1FCC:1FCC:1:-9 1FD8:1FD9:1:-8 1FDA:1FDB:1:-100",
   "1FE8:1FE9:1:-8 1FEA:1FEB:1:-112 1FEC:1FEC:1:-7 1FF8:1FF9:1:-128 1FFA:1FFB:1:-126",
   "1FFC:1FFC:1:-9 2126:2126:1:-7517 212A:212A:1:-8383 212B:212B:1:-8262 2132:2132:1:28",
   "2160:216F:1:16 2183:2183:1:1 24B6:24CF:1:26 2C00:2C2F:1:48 2C60:2C60:1:1 2C62:2C62:1:-10743",
   "2C63:2C63:1:-3814 2C64:2C64:1:-10727 2C67:2C6B:2:1 2C6D:2C6D:1:-10780 2C6E:2C6E:1:-10749",
   "2C6F:2C6F:1:-10783 2C70:2C70:1:-10782 2C72:2C72:1:1 2C75:2C75:1:1 2C7E:2C7F:1:-10815",
   "2C80:2CE2:2:1 2CEB:2CED:2:1 2CF2:2CF2:1:1 A640:A66C:2:1 A680:A69A:2:1 A722:A72E:2:1",
   "A732:A76E:2:1 A779:A77B:2:1 A77D:A77D:1:-35332 A77E:A786:2:1 A78B:A78B:1:1",
   "A78D:A78D:1:-42280 A790:A792:2:1 A796:A7A8:2:1 A7AA:A7AA:1:-42308 A7AB:A7AB:1:-42319",
   "A7AC:A7AC:1:-42315 A7AD:A7AD:1:-42305 A7AE:A7AE:1:-42308 A7B0:A7B0:1:-42258",
   "A7B1:A7B1:1:-42282 A7B2:A7B2:1:-42261 A7B3:A7B3:1:928 A7B4:A7C2:2:1 A7C4:A7C4:1:-48",
   "A7C5:A7C5:1:-42307 A7C6:A7C6:1:-35384 A7C7:A7C9:2:1 A7CB:A7CB:1:-42343 A7CC:A7DA:2:1",
   "A7DC:A7DC:1:-42561 A7F5:A7F5:1:1 FF21:FF3A:1:32 10400:10427:1:40 104B0:104D3:1:40",
   "10570:10594:2:39 10571:10579:2:39 1057D:10589:2:39 1058D:10591:2:39 10595:10595:1:39",
   "10C80:10CB2:1:64 10D50:10D65:1:32 118A0:118BF:1:32 16E40:16E5F:1:32 16EA0:16EB8:1:27",
   "1E900:1E921:1:34"]

private def expansions : List (Char × List Char) :=
  let row := fun (cs : List Char) =>
    (cs.splitOn '+').map fun part => Char.ofNat (CharSet.hexOf part)
  let rows := (entries
    ["DF+53+53 149+2BC+4E 1F0+4A+30C 390+399+308+301 3B0+3A5+308+301 587+535+552 1E96+48+331",
     "1E97+54+308 1E98+57+30A 1E99+59+30A 1E9A+41+2BE 1F50+3A5+313 1F52+3A5+313+300",
     "1F54+3A5+313+301 1F56+3A5+313+342 1F80+1F08+399 1F81+1F09+399 1F82+1F0A+399 1F83+1F0B+399",
     "1F84+1F0C+399 1F85+1F0D+399 1F86+1F0E+399 1F87+1F0F+399 1F88+1F08+399 1F89+1F09+399",
     "1F8A+1F0A+399 1F8B+1F0B+399 1F8C+1F0C+399 1F8D+1F0D+399 1F8E+1F0E+399 1F8F+1F0F+399",
     "1F90+1F28+399 1F91+1F29+399 1F92+1F2A+399 1F93+1F2B+399 1F94+1F2C+399 1F95+1F2D+399",
     "1F96+1F2E+399 1F97+1F2F+399 1F98+1F28+399 1F99+1F29+399 1F9A+1F2A+399 1F9B+1F2B+399",
     "1F9C+1F2C+399 1F9D+1F2D+399 1F9E+1F2E+399 1F9F+1F2F+399 1FA0+1F68+399 1FA1+1F69+399",
     "1FA2+1F6A+399 1FA3+1F6B+399 1FA4+1F6C+399 1FA5+1F6D+399 1FA6+1F6E+399 1FA7+1F6F+399",
     "1FA8+1F68+399 1FA9+1F69+399 1FAA+1F6A+399 1FAB+1F6B+399 1FAC+1F6C+399 1FAD+1F6D+399",
     "1FAE+1F6E+399 1FAF+1F6F+399 1FB2+1FBA+399 1FB3+391+399 1FB4+386+399 1FB6+391+342",
     "1FB7+391+342+399 1FBC+391+399 1FC2+1FCA+399 1FC3+397+399 1FC4+389+399 1FC6+397+342",
     "1FC7+397+342+399 1FCC+397+399 1FD2+399+308+300 1FD3+399+308+301 1FD6+399+342",
     "1FD7+399+308+342 1FE2+3A5+308+300 1FE3+3A5+308+301 1FE4+3A1+313 1FE6+3A5+342",
     "1FE7+3A5+308+342 1FF2+1FFA+399 1FF3+3A9+399 1FF4+38F+399 1FF6+3A9+342 1FF7+3A9+342+399",
     "1FFC+3A9+399 FB00+46+46 FB01+46+49 FB02+46+4C FB03+46+46+49 FB04+46+46+4C FB05+53+54",
     "FB06+53+54 FB13+544+546 FB14+544+535 FB15+544+53B FB16+54E+546 FB17+544+53D"]).map row
  rows.filterMap fun
    | c :: image => some (c, image)
    | [] => none

def upper (c : Char) : List Char :=
  if c.toNat < 0x80 then [c.toUpper]
  else match expansions.lookup c with
    | some image => image
    | none => [CaseRun.apply upperRuns c]

def lower (c : Char) : List Char :=
  if c.toNat < 0x80 then [c.toLower]
  else if c == '\u0130' then ['i', '\u0307']
  else [CaseRun.apply lowerRuns c]

private def pointSet (rs : List CaseRun) : CharSet :=
  .ofRanges ((rs.flatMap CaseRun.points).map fun n => (n, n))

def raised : CharSet :=
  pointSet upperRuns ∪ .ofRanges (expansions.map fun (c, _) => (c.toNat, c.toNat))

def lowered : CharSet :=
  pointSet lowerRuns ∪ .single '\u0130'

end CaseMap

end Verdict.Text
