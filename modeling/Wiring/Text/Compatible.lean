import Wiring.Entries

/-! Compatible spellings of letters: ligatures, letters of mathematical alphabets, wide and raised
letters stand for plain ones, and a letter with a mark after it stands for the letter that has the
mark. -/
namespace Wiring.Text

/-- Runs of characters that stand for a run of plain ones: the first of each, and how many. -/
def compatibleRuns : List (Nat × Nat × Nat) :=
  [(0x340, 0x300, 2), (0x3f1, 0x3c1, 2), (0x1d30, 0x44, 2), (0x1d33, 0x47, 8), (0x1d40, 0x54, 2),
   (0x1d44, 0x250, 2), (0x1d48, 0x64, 2), (0x1d4b, 0x25b, 2), (0x1d54, 0x1d16, 2),
   (0x1d57, 0x74, 2), (0x1d5d, 0x3b2, 3), (0x1d60, 0x3c6, 2), (0x1d64, 0x75, 2),
   (0x1d66, 0x3b2, 2), (0x1d69, 0x3c6, 2), (0x1da4, 0x268, 3), (0x1dae, 0x272, 4),
   (0x1db3, 0x282, 2), (0x1db6, 0x289, 2), (0x1db9, 0x28b, 2), (0x1dbc, 0x290, 3),
   (0x2096, 0x6b, 4), (0x209b, 0x73, 2), (0x2119, 0x50, 3), (0x212c, 0x42, 2), (0x2130, 0x45, 2),
   (0x2135, 0x5d0, 4), (0x2146, 0x64, 2), (0x2148, 0x69, 2), (0x216d, 0x43, 2), (0x217d, 0x63, 2),
   (0xff10, 0x30, 10), (0xff21, 0x41, 26), (0xff41, 0x61, 26), (0x10781, 0x2d0, 2),
   (0x1078b, 0x256, 2), (0x10799, 0x2aa, 2), (0x107a3, 0x276, 2), (0x107a8, 0x27d, 2),
   (0x107b3, 0x2a1, 2), (0x107b6, 0x1c0, 3), (0x1d400, 0x41, 26), (0x1d41a, 0x61, 26),
   (0x1d434, 0x41, 26), (0x1d44e, 0x61, 7), (0x1d456, 0x69, 18), (0x1d468, 0x41, 26),
   (0x1d482, 0x61, 26), (0x1d49e, 0x43, 2), (0x1d4a5, 0x4a, 2), (0x1d4a9, 0x4e, 4),
   (0x1d4ae, 0x53, 8), (0x1d4b6, 0x61, 4), (0x1d4bd, 0x68, 7), (0x1d4c5, 0x70, 11),
   (0x1d4d0, 0x41, 26), (0x1d4ea, 0x61, 26), (0x1d504, 0x41, 2), (0x1d507, 0x44, 4),
   (0x1d50d, 0x4a, 8), (0x1d516, 0x53, 7), (0x1d51e, 0x61, 26), (0x1d538, 0x41, 2),
   (0x1d53b, 0x44, 4), (0x1d540, 0x49, 5), (0x1d54a, 0x53, 7), (0x1d552, 0x61, 26),
   (0x1d56c, 0x41, 26), (0x1d586, 0x61, 26), (0x1d5a0, 0x41, 26), (0x1d5ba, 0x61, 26),
   (0x1d5d4, 0x41, 26), (0x1d5ee, 0x61, 26), (0x1d608, 0x41, 26), (0x1d622, 0x61, 26),
   (0x1d63c, 0x41, 26), (0x1d656, 0x61, 26), (0x1d670, 0x41, 26), (0x1d68a, 0x61, 26),
   (0x1d6a8, 0x391, 17), (0x1d6ba, 0x3a3, 7), (0x1d6c2, 0x3b1, 25), (0x1d6e2, 0x391, 17),
   (0x1d6f4, 0x3a3, 7), (0x1d6fc, 0x3b1, 25), (0x1d71c, 0x391, 17), (0x1d72e, 0x3a3, 7),
   (0x1d736, 0x3b1, 25), (0x1d756, 0x391, 17), (0x1d768, 0x3a3, 7), (0x1d770, 0x3b1, 25),
   (0x1d790, 0x391, 17), (0x1d7a2, 0x3a3, 7), (0x1d7aa, 0x3b1, 25), (0x1d7ca, 0x3dc, 2),
   (0x1d7ce, 0x30, 10), (0x1d7d8, 0x30, 10), (0x1d7e2, 0x30, 10), (0x1d7ec, 0x30, 10),
   (0x1d7f6, 0x30, 10)]

/-- Characters that stand for a plain one each: the plain ones are in `plainLetters`. -/
def compatibleLetters : String :=
  "ªµºſʰʱʲʳʴʵʶʷʸˠˡˢˣˤʹ·ϐϑϒϓϔϕϖϰϴϵϹჼᴬᴭᴮᴲᴼᴽᴾᴿᵂᵃᵆᵇᵊᵍᵏᵐᵑᵒᵓᵖᵙᵚᵛᵜᵢᵣᵨᵸᶛᶜᶝᶞᶟᶠᶡᶢᶣᶧᶨᶩᶪᶫᶬᶭᶲᶵᶸᶻᶿẛάέήίόύ" ++
  "ώΆιΈΉΐΊΰΎΌΏⁱⁿₐₑₒₓₔₕₚℂℇℊℋℌℍℎℏℐℑℒℓℕℜℝℤΩℨKÅℯℳℴℹℼℽℾℿⅅⅠⅤⅩⅬⅯⅰⅴⅹⅼⅿⱼⱽⵯꚜꚝꝰꟲꟳꟴꟸꟹꭜꭝꭞꭟꭩ︳︴﹍﹎﹏＿𐞃𐞄𐞅𐞇𐞈𐞉𐞊" ++
  "𐞍𐞎𐞏𐞐𐞑𐞒𐞓𐞔𐞕𐞖𐞗𐞘𐞛𐞜𐞝𐞞𐞟𐞠𐞡𐞢𐞥𐞦𐞧𐞪𐞫𐞬𐞭𐞮𐞯𐞰𐞲𐞵𐞹𐞺𝒜𝒢𝒻𝕆𝚤𝚥𝚹𝛜𝛝𝛞𝛟𝛠𝛡𝛳𝜖𝜗𝜘𝜙𝜚𝜛𝜭𝝐𝝑𝝒𝝓𝝔𝝕𝝧𝞊𝞋𝞌𝞍𝞎𝞏𝞡𝟄𝟅𝟆𝟇𝟈𝟉"

def plainLetters : String :=
  "aμoshɦjrɹɻʁwyɣlsxʕʹ·βθΥΎΫφπκΘεΣნAÆBƎOȢPRWaᴂbəgkmŋoɔpᴝɯvᴥirρнɒcɕðɜfɟɡɥᵻʝɭᶅʟɱɰɸƫᴜzθṡάέήίόύ" ++
  "ώΆιΈΉΐΊΰΎΌΏinaeoxəhpCƐgHHHhħIILlNRRZΩZKÅeMoiπγΓΠDIVXLMivxlmjVⵡъьꝯCFQĦœꜧꬷɫꭒʍ______æʙɓʣꭦʥʤ" ++
  "ᶑɘɞʩɤɢɠʛħʜɧʄɬ𝼄ꞎɮ𝼅ʎ𝼆øqɺ𝼈ʀʨʦꭧʧʈⱱʏʘ𝼊𝼞AGfOıȷΘεθκφρπΘεθκφρπΘεθκφρπΘεθκφρπΘεθκφρπ"

def compatibleGroups : List (Nat × String) :=
  [(0x132, "IJ"), (0x133, "ij"), (0x13f, "L·"), (0x140, "l·"), (0x149, "ʼn"), (0x1c4, "DŽ"),
   (0x1c5, "Dž"), (0x1c6, "dž"), (0x1c7, "LJ"), (0x1c8, "Lj"), (0x1c9, "lj"), (0x1ca, "NJ"),
   (0x1cb, "Nj"), (0x1cc, "nj"), (0x1f1, "DZ"), (0x1f2, "Dz"), (0x1f3, "dz"), (0x587, "եւ"),
   (0x1e9a, "aʾ"), (0x2161, "II"), (0x2162, "III"), (0x2163, "IV"), (0x2165, "VI"),
   (0x2166, "VII"), (0x2167, "VIII"), (0x2168, "IX"), (0x216a, "XI"), (0x216b, "XII"),
   (0x2171, "ii"), (0x2172, "iii"), (0x2173, "iv"), (0x2175, "vi"), (0x2176, "vii"),
   (0x2177, "viii"), (0x2178, "ix"), (0x217a, "xi"), (0x217b, "xii"), (0xfb00, "ff"),
   (0xfb01, "fi"), (0xfb02, "fl"), (0xfb03, "ffi"), (0xfb04, "ffl"), (0xfb05, "st"),
   (0xfb06, "st"), (0xfb13, "մն"), (0xfb14, "մե"), (0xfb15, "մի"), (0xfb16, "վն"), (0xfb17, "մխ")]

/-- For each mark the letters it can stand after, and the letters that have the mark. -/
def markedLetters : List (Nat × String × String) :=
  [(0x300, "AEIOUaeiouÜüNnЕИеиĒēŌōWwÂâĂăÊêÔôƠơƯưYyἀἁἈἉἐἑἘἙἠἡἨἩἰἱἸἹὀὁὈὉὐὑὙὠὡὨὩαεηιουωΑΕΗ᾿ϊΙ῾ϋΥ¨ΟΩ",
     "ÀÈÌÒÙàèìòùǛǜǸǹЀЍѐѝḔḕṐṑẀẁẦầẰằỀềỒồỜờỪừỲỳἂἃἊἋἒἓἚἛἢἣἪἫἲἳἺἻὂὃὊὋὒὓὛὢὣὪὫὰὲὴὶὸὺὼᾺῈῊ῍ῒῚ῝ῢῪ῭ῸῺ"),
   (0x301, "AEIOUYaeiouyCcLlNnRrSsZzÜüGgÅåÆæØø¨ΑΕΗΙΟΥΩϊαεηιϋουωϒГКгкÇçĒēÏïKkMmÕõŌōPpŨũWwÂâĂăÊêÔô" ++
     "ƠơƯưἀἁἈἉἐἑἘἙἠἡἨἩἰἱἸἹὀὁὈὉὐὑὙὠὡὨὩ᾿῾",
     "ÁÉÍÓÚÝáéíóúýĆćĹĺŃńŔŕŚśŹźǗǘǴǵǺǻǼǽǾǿ΅ΆΈΉΊΌΎΏΐάέήίΰόύώϓЃЌѓќḈḉḖḗḮḯḰḱḾḿṌṍṒṓṔṕṸṹẂẃẤấẮắẾếỐốỚ" ++
     "ớỨứἄἅἌἍἔἕἜἝἤἥἬἭἴἵἼἽὄὅὌὍὔὕὝὤὥὬὭ῎῞"),
   (0x302, "AEIOUaeiouCcGgHhJjSsWwYyZzẠạẸẹỌọ",
     "ÂÊÎÔÛâêîôûĈĉĜĝĤĥĴĵŜŝŴŵŶŷẐẑẬậỆệỘộ"),
   (0x303, "ANOanoIiUuVvÂâĂăEeÊêÔôƠơƯưYy",
     "ÃÑÕãñõĨĩŨũṼṽẪẫẴẵẼẽỄễỖỗỠỡỮữỸỹ"),
   (0x308, "AEIOUaeiouyYΙΥιυϒЕІеіАаӘәЖжЗзИиОоӨөЭэУуЧчЫыHhÕõŪūWwXxt",
     "ÄËÏÖÜäëïöüÿŸΪΫϊϋϔЁЇёїӒӓӚӛӜӝӞӟӤӥӦӧӪӫӬӭӰӱӴӵӸӹḦḧṎṏṺṻẄẅẌẍẗ"),
   (0x30a, "AaUuwy",
     "ÅåŮůẘẙ"),
   (0x327, "CcGgKkLlNnRrSsTtEeDdHh",
     "ÇçĢģĶķĻļŅņŖŗŞşŢţȨȩḐḑḨḩ"),
   (0x304, "AaEeIiOoUuÜüÄäȦȧÆæǪǫÖöÕõȮȯYyИиУуGgḶḷṚṛαΑιΙυΥ",
     "ĀāĒēĪīŌōŪūǕǖǞǟǠǡǢǣǬǭȪȫȬȭȰȱȲȳӢӣӮӯḠḡḸḹṜṝᾱᾹῑῙῡῩ"),
   (0x306, "AaEeGgIiOoUuУИиуЖжАаЕеȨȩẠạαΑιΙυΥ",
     "ĂăĔĕĞğĬĭŎŏŬŭЎЙйўӁӂӐӑӖӗḜḝẶặᾰᾸῐῘῠῨ"),
   (0x328, "AaEeIiUuOo",
     "ĄąĘęĮįŲųǪǫ"),
   (0x307, "CcEeGgIZzAaOoBbDdFfHhMmNnPpRrSsŚśŠšṢṣTtWwXxYyſ",
     "ĊċĖėĠġİŻżȦȧȮȯḂḃḊḋḞḟḢḣṀṁṄṅṖṗṘṙṠṡṤṥṦṧṨṩṪṫẆẇẊẋẎẏẛ"),
   (0x30c, "CcDdEeLlNnRrSsTtZzAaIiOoUuÜüGgKkƷʒjHh",
     "ČčĎďĚěĽľŇňŘřŠšŤťŽžǍǎǏǐǑǒǓǔǙǚǦǧǨǩǮǯǰȞȟ"),
   (0x30b, "OoUuУу",
     "ŐőŰűӲӳ"),
   (0x31b, "OoUu",
     "ƠơƯư"),
   (0x30f, "AaEeIiOoRrUuѴѵ",
     "ȀȁȄȅȈȉȌȍȐȑȔȕѶѷ"),
   (0x311, "AaEeIiOoRrUu",
     "ȂȃȆȇȊȋȎȏȒȓȖȗ"),
   (0x326, "SsTt",
     "ȘșȚț"),
   (0x325, "Aa",
     "Ḁḁ"),
   (0x323, "BbDdHhKkLlMmNnRrSsTtVvWwZzAaEeIiOoƠơUuƯưYy",
     "ḄḅḌḍḤḥḲḳḶḷṂṃṆṇṚṛṢṣṬṭṾṿẈẉẒẓẠạẸẹỊịỌọỢợỤụỰựỴỵ"),
   (0x331, "BbDdKkLlNnRrTtZzh",
     "ḆḇḎḏḴḵḺḻṈṉṞṟṮṯẔẕẖ"),
   (0x32d, "DdEeLlNnTtUu",
     "ḒḓḘḙḼḽṊṋṰṱṶṷ"),
   (0x330, "EeIiUu",
     "ḚḛḬḭṴṵ"),
   (0x32e, "Hh",
     "Ḫḫ"),
   (0x324, "Uu",
     "Ṳṳ"),
   (0x309, "AaÂâĂăEeÊêIiOoÔôƠơUuƯưYy",
     "ẢảẨẩẲẳẺẻỂểỈỉỎỏỔổỞởỦủỬửỶỷ"),
   (0x313, "αΑεΕηΗιΙοΟυωΩρ",
     "ἀἈἐἘἠἨἰἸὀὈὐὠὨῤ"),
   (0x314, "αΑεΕηΗιΙοΟυΥωΩρΡ",
     "ἁἉἑἙἡἩἱἹὁὉὑὙὡὩῥῬ"),
   (0x342, "ἀἁἈἉἠἡἨἩἰἱἸἹὐὑὙὠὡὨὩα¨η᾿ιϊ῾υϋω",
     "ἆἇἎἏἦἧἮἯἶἷἾἿὖὗὟὦὧὮὯᾶ῁ῆ῏ῖῗ῟ῦῧῶ"),
   (0x345, "ἀἁἂἃἄἅἆἇἈἉἊἋἌἍἎἏἠἡἢἣἤἥἦἧἨἩἪἫἬἭἮἯὠὡὢὣὤὥὦὧὨὩὪὫὬὭὮὯὰαάᾶΑὴηήῆΗὼωώῶΩ",
     "ᾀᾁᾂᾃᾄᾅᾆᾇᾈᾉᾊᾋᾌᾍᾎᾏᾐᾑᾒᾓᾔᾕᾖᾗᾘᾙᾚᾛᾜᾝᾞᾟᾠᾡᾢᾣᾤᾥᾦᾧᾨᾩᾪᾫᾬᾭᾮᾯᾲᾳᾴᾷᾼῂῃῄῇῌῲῳῴῷῼ"),
   (0x338, "←→↔⇐⇔⇒",
     "↚↛↮⇍⇎⇏")]

def counterpart? (c : Char) (these those : String) : Option Char :=
  (these.toList.zip those.toList).lookup c

def plain (c : Char) : List Char :=
  if c.toNat < 0x80 then [c]
  else
    let inRun := compatibleRuns.find? fun (first, _, count) =>
      first ≤ c.toNat && c.toNat < first + count
    match inRun with
    | some (first, target, _) => [Char.ofNat (target + (c.toNat - first))]
    | none =>
      match compatibleGroups.lookup c.toNat with
      | some letters => letters.toList
      | none => [(counterpart? c compatibleLetters plainLetters).getD c]

def marked? (letter mark : Char) : Option Char :=
  (markedLetters.lookup mark.toNat).bind fun (letters, composed) =>
    counterpart? letter letters composed

def compose : List Char → List Char
  | [] => []
  | c :: rest => go c rest
where
  go (letter : Char) : List Char → List Char
    | [] => [letter]
    | mark :: rest =>
      match marked? letter mark with
      | some composed => go composed rest
      | none => letter :: go mark rest

/-- The plain spelling of a name. Names with the same plain spelling are the same. -/
def plainSpelling (name : String) : String :=
  if name.toList.all fun c => c.toNat < 0x80 then name
  else String.ofList (compose (name.toList.flatMap plain))

end Wiring.Text
