import Verdict.Text.CaseMap

/-!
# Case classes

The classes of characters that differ in case only, by the simple case folding of version 16.0 of
the Unicode standard.
-/

namespace Verdict.Text.CaseClass

private def pairRuns : List CaseRun := CaseRun.ofTable
  ["41:4A:1:32 4C:5A:2:32 4D:51:2:32 55:59:2:32 C0:DE:2:32 C1:C3:2:32 C7:D5:2:32 D9:DD:2:32",
   "DF:DF:1:7615 FF:FF:1:121 100:12E:2:1 132:136:2:1 139:147:2:1 14A:176:2:1 179:17D:2:1",
   "180:180:1:195 181:181:1:210 182:184:2:1 186:186:1:206 187:187:1:1 189:18A:1:205 18B:18B:1:1",
   "18E:18E:1:79 18F:18F:1:202 190:190:1:203 191:191:1:1 193:193:1:205 194:194:1:207",
   "195:195:1:97 196:196:1:211 197:197:1:209 198:198:1:1 19A:19A:1:163 19B:19B:1:42561",
   "19C:19C:1:211 19D:19D:1:213 19E:19E:1:130 19F:19F:1:214 1A0:1A4:2:1 1A6:1A6:1:218",
   "1A7:1A7:1:1 1A9:1A9:1:218 1AC:1AC:1:1 1AE:1AE:1:218 1AF:1AF:1:1 1B1:1B2:1:217 1B3:1B5:2:1",
   "1B7:1B7:1:219 1B8:1B8:1:1 1BC:1BC:1:1 1BF:1BF:1:56 1CD:1DB:2:1 1DE:1EE:2:1 1F4:1F4:1:1",
   "1F8:21E:2:1 222:232:2:1 23A:23A:1:10795 23B:23B:1:1 23E:23E:1:10792 23F:240:1:10815",
   "241:241:1:1 244:244:1:69 245:245:1:71 246:24E:2:1 250:250:1:10783 251:251:1:10780",
   "252:252:1:10782 25C:25C:1:42319 261:261:1:42315 264:264:1:42343 265:265:1:42280",
   "266:266:1:42308 26A:26A:1:42308 26B:26B:1:10743 26C:26C:1:42305 271:271:1:10749",
   "27D:27D:1:10727 282:282:1:42307 287:287:1:42282 29D:29D:1:42261 29E:29E:1:42258 370:372:2:1",
   "376:376:1:1 37B:37D:1:130 37F:37F:1:116 386:386:1:38 388:38A:1:37 38C:38C:1:64 38E:38F:1:63",
   "390:390:1:7235 391:393:2:32 394:396:2:32 397:397:1:32 39B:39F:2:32 39E:39E:1:32",
   "3A4:3A5:1:32 3A7:3A8:1:32 3AA:3AB:1:32 3B0:3B0:1:7219 3CF:3CF:1:8 3D8:3EE:2:1 3F2:3F2:1:7",
   "3F7:3F7:1:1 3FA:3FA:1:1 400:40F:1:80 410:411:1:32 413:41F:2:32 416:41C:2:32 420:420:1:32",
   "423:429:1:32 42B:42F:1:32 460:460:1:1 464:480:2:1 48A:4BE:2:1 4C0:4C0:1:15 4C1:4CD:2:1",
   "4D0:52E:2:1 531:556:1:48 10A0:10C5:1:7264 10C7:10C7:1:7264 10CD:10CD:1:7264",
   "10D0:10FA:1:3008 10FD:10FF:1:3008 13A0:13EF:1:38864 13F0:13F5:1:8 1C89:1C89:1:1",
   "1D79:1D79:1:35332 1D7D:1D7D:1:3814 1D8E:1D8E:1:35384 1E00:1E5E:2:1 1E62:1E94:2:1",
   "1EA0:1EFE:2:1 1F00:1F07:1:8 1F10:1F15:1:8 1F20:1F27:1:8 1F30:1F37:1:8 1F40:1F45:1:8",
   "1F51:1F57:2:8 1F60:1F67:1:8 1F70:1F71:1:74 1F72:1F75:1:86 1F76:1F77:1:100 1F78:1F79:1:128",
   "1F7A:1F7B:1:112 1F7C:1F7D:1:126 1F80:1F87:1:8 1F90:1F97:1:8 1FA0:1FA7:1:8 1FB0:1FB1:1:8",
   "1FB3:1FB3:1:9 1FC3:1FC3:1:9 1FD0:1FD1:1:8 1FE0:1FE1:1:8 1FE5:1FE5:1:7 1FF3:1FF3:1:9",
   "2132:2132:1:28 2160:216F:1:16 2183:2183:1:1 24B6:24CF:1:26 2C00:2C2F:1:48 2C60:2C60:1:1",
   "2C67:2C6B:2:1 2C72:2C72:1:1 2C75:2C75:1:1 2C80:2CE2:2:1 2CEB:2CED:2:1 2CF2:2CF2:1:1",
   "A640:A648:2:1 A64C:A66C:2:1 A680:A69A:2:1 A722:A72E:2:1 A732:A76E:2:1 A779:A77B:2:1",
   "A77E:A786:2:1 A78B:A78B:1:1 A790:A792:2:1 A794:A794:1:48 A796:A7A8:2:1 A7B3:A7B3:1:928",
   "A7B4:A7C2:2:1 A7C7:A7C9:2:1 A7CC:A7CC:1:1 A7D0:A7D0:1:1 A7D6:A7DA:2:1 A7F5:A7F5:1:1",
   "FB05:FB05:1:1 FF21:FF3A:1:32 10400:10427:1:40 104B0:104D3:1:40 10570:10594:2:39",
   "10571:10579:2:39 1057D:10589:2:39 1058D:10591:2:39 10595:10595:1:39 10C80:10CB2:1:64",
   "10D50:10D65:1:32 118A0:118BF:1:32 16E40:16E5F:1:32 1E900:1E921:1:34"]

private def widerClasses : List (List Nat) :=
  let rows := entries
    ["4B+6B+212A 53+73+17F B5+39C+3BC C5+E5+212B 1C4+1C5+1C6 1C7+1C8+1C9 1CA+1CB+1CC",
     "1F1+1F2+1F3 345+399+3B9+1FBE 392+3B2+3D0 395+3B5+3F5 398+3B8+3D1+3F4 39A+3BA+3F0",
     "3A0+3C0+3D6 3A1+3C1+3F1 3A3+3C2+3C3 3A6+3C6+3D5 3A9+3C9+2126 412+432+1C80 414+434+1C81",
     "41E+43E+1C82 421+441+1C83 422+442+1C84+1C85 42A+44A+1C86 462+463+1C87 1C88+A64A+A64B",
     "1E60+1E61+1E9B"]
  rows.map fun row => (row.splitOn '+').map CharSet.hexOf

def all : List (List Nat) :=
  widerClasses ++ pairRuns.flatMap fun r => r.points.map fun n => [n, r.image n]

def find? (c : Char) : Option (List Nat) :=
  all.find? (·.contains c.toNat)

end Verdict.Text.CaseClass
