import LogTemplate.Regex.CharSet
import LogTemplate.Unicode.Category

/-!
# LogTemplate.Unicode.BinaryProperty

Properties that a code point has or has not. Most are some categories and a few more code points.

* `binaryNames` — the short and the long name of each property.
* `exceptionTexts` — where a property differs from the categories that it is made of.
* `binarySet?` — the code points that have a property.
-/

namespace LogTemplate.Unicode

open Regex (CharSet)

/-- The short and the long name of each property. -/
def binaryNames : List (String × String) := [
  ("Alpha", "Alphabetic"), ("Bidi_C", "Bidi_Control"), ("Bidi_M", "Bidi_Mirrored"),
  ("CI", "Case_Ignorable"), ("Cased", "Cased"), ("Dash", "Dash"),
  ("DI", "Default_Ignorable_Code_Point"), ("Dep", "Deprecated"), ("Dia", "Diacritic"),
  ("Emoji", "Emoji"), ("EComp", "Emoji_Component"), ("EMod", "Emoji_Modifier"),
  ("EBase", "Emoji_Modifier_Base"), ("EPres", "Emoji_Presentation"),
  ("ExtPict", "Extended_Pictographic"), ("Ext", "Extender"), ("Gr_Base", "Grapheme_Base"),
  ("Gr_Ext", "Grapheme_Extend"), ("Hex", "Hex_Digit"), ("IDSB", "IDS_Binary_Operator"),
  ("IDST", "IDS_Trinary_Operator"), ("Ideo", "Ideographic"), ("Join_C", "Join_Control"),
  ("LOE", "Logical_Order_Exception"), ("Lower", "Lowercase"), ("Math", "Math"),
  ("NChar", "Noncharacter_Code_Point"), ("Pat_Syn", "Pattern_Syntax"),
  ("Pat_WS", "Pattern_White_Space"), ("QMark", "Quotation_Mark"), ("Radical", "Radical"),
  ("RI", "Regional_Indicator"), ("STerm", "Sentence_Terminal"), ("SD", "Soft_Dotted"),
  ("Term", "Terminal_Punctuation"), ("UIdeo", "Unified_Ideograph"), ("Upper", "Uppercase"),
  ("VS", "Variation_Selector"), ("XIDC", "XID_Continue"), ("XIDS", "XID_Start"),
  ("CWCF", "Changes_When_Casefolded"), ("CWCM", "Changes_When_Casemapped"),
  ("CWL", "Changes_When_Lowercased"), ("CWKCF", "Changes_When_NFKC_Casefolded"),
  ("CWT", "Changes_When_Titlecased"), ("CWU", "Changes_When_Uppercased"), ("IDS", "ID_Start"),
  ("IDC", "ID_Continue"), ("space", "White_Space"), ("AHex", "ASCII_Hex_Digit"), ("Any", "Any"),
  ("ASCII", "ASCII"), ("Assigned", "Assigned")]

/-- By long name, the code points that a property has in addition to its categories, with the label
`A`, and those that it has not, with the label `R`. -/
def exceptionTexts : List (String × List String) := [
  ("Alphabetic", [
    "N837A1N618A14N1A1N1A2N1A2N1A1N72A11N48A13N1A7N16A1N101A7N4A4N2A2N4A1N35A1N30A16N102A11N101A2",
    "N3A9N1A3N1A4N167A12N3A7N6A20N54A2N2A15N1A2N5A3N10A2N29A3N58A7N2A2N2A2N10A1N10A2N29A3N58A5N4",
    "A2N2A2N4A1N30A2N3A1N11A3N58A8N1A3N1A2N21A2N22A3N4A3N58A7N2A2N2A2N9A2N10A2N30A1N59A5N3A3N1A3",
    "N10A1N40A5N57A7N1A3N1A3N8A2N11A2N29A3N58A7N1A3N1A3N8A2N11A2N15A1N12A4N58A7N1A3N1A3N10A1N10A2",
    "N29A3N75A6N1A1N1A8N18A2N61A1N2A7N18A1N99A1N2A6N1A2N16A1N163A19N9A11N1A36N110A12N1A1N2A4N23A4",
    "N4A3N1A3N2A7N3A4N13A12N1A1N10A4N1652A2N30A2N30A2N30A2N66A19N188A2N34A1N118A12N4A9N222A5N57",
    "A10N2A20N74A2N11A3N49A5N48A15N60A3N30A9N2A2N57A11N50A19N432A14N1729A52N2294A32N30836A8N34A2",
    "N354A1N8A1N23A5N88A2N50A16N1A1N57A1N38A5N28A12N45A4N48A12N37A1N67A14N12A1N8A2N45A3N50A1N1A3",
    "N2A2N5A1N44A5N5A1N237A8N20275A1N2135A5N1670A3N1A2N5A4N788A4N387A2N339A3N53A14N45A2N11A3N45A9",
    "N9A1N61A3N36A12N18A2N57A3N48A13N14A2N92A9N2A1N6A1N2A1N157A10N23A4N58A7N2A2N2A2N10A1N10A2N209",
    "A13N1A3N106A18N237A7N2A7N29A2N82A15N1A1N106A11N103A14N257A13N247A6N1A2N2A2N3A1N1A1N142A7N2A6",
    "N4A1N28A10N42A5N1A4N18A11N46A14N407A8N1A7N83A22N1A14N122A6N3A1N1A2N1A3N1A1N3A1N66A5N1A2N1A4",
    "N348A4N9A2N1A1N48A7N3A3N20494A1N1A55N7A4N93A2N19628A1N9057A7N1A17N2A7N1A2N1A5N100A1N2231A1",
    "N2024A26N6A26N6A26"]),
  ("Bidi_Control", ["N1564A1N6641A2N26A5N55A4"]),
  ("Bidi_Mirrored", [
    "N40A2N18A1N1A1N28A1N1A1N29A1N1A1N45A1N15A1N3710A4N1885A2N2460A2N10A2N54A2N14A2N177A1N192A4N3",
    "A6N3A1N3A2N3A4N1A4N1A1N1A1N4A9N5A1N1A18N5A4N9A2N1A1N1A8N2A31N2A4N5A1N9A2N2A19N5A2N9A5N2A2N4",
    "A24N2A16N8A4N20A2N7A2N1085A14N74A1N2A4N1A2N1A3N5A4N5A3N3A14N403A22N2A6N1A14N8A1N7A6N3A1N4A5",
    "N1A2N2A5N4A1N1A3N2A2N10A6N2A2N12A19N1A4N2A1N1A1N2A1N1A4N5A2N6A3N24A2N11A2N4A4N1A2N2A2N4A43N2",
    "A8N1A40N5A1N1A1N3A5N5A3N4A1N3A5N1A1N256A1N515A4N3A2N1A2N14A2N2A10N43A8N427A10N2A8N52797A6N5",
    "A2N162A2N18A1N1A1N28A1N1A1N29A1N1A1N1A2N1A2N55159A1N57A1N57A1N57A1N57A1"]),
  ("Case_Ignorable", [
    "N39A1N6A1N11A1N124A1N719A1N471A1N148A1N6691A2N10A1N2A1N56811A1N62A1N2A1N177A1N6A1N11A1"]),
  ("Dash", ["N8275A1N39A1N15A1N390A1"]),
  ("Default_Ignorable_Code_Point", [
    "N173A1N673A1N716A1N2882A2N1619A2N85A5N2043A5N26A5N49A16N4340A1N52379A16N239A1N160A1N79A9",
    "N48295A4N5327A8N798341A4096"]),
  ("Deprecated", ["N329A1N1321A1N2307A1N1A1N2089A2N2245A6N697A2N908502A1"]),
  ("Diacritic", [
    "N94A1N1A1N71A1N6A1N4A1N2A2N503A159N1A8N5A6N17A2N4A1N9A2N253A5N209A1N55A17N1A27N1A1N1A2N1A1",
    "N134A8N4A2N134A2N4A2N3A3N67A27N91A11N58A11N34A2N126A8N41A10N16A28N61A1N16A1N3A4N28A1N74A1N16",
    "A1N110A1N16A1N110A1N16A1N47A3N60A1N16A1N7A1N119A1N110A1N16A1N110A1N16A1N109A2N16A1N124A1N124",
    "A6N1A1N107A1N13A5N75A2N27A1N1A1N1A1N4A2N66A3N1A2N62A1N112A1N1A2N40A2N4A5N25A7N1A1N10A2N705A3",
    "N948A2N179A11N9A1N347A3N313A8N2A1N48A15N2A11N104A1N15A1N38A9N54A2N138A2N64A6N82A25N4A1N6A1N2",
    "A3N50A63N89A12N37A11N445A1N1A3N11A3N13A3N13A3N13A2N3312A3N317A1N506A6N105A4N95A1N30066A1N12",
    "A2N1A1N28A2N82A2N14A34N102A3N109A2N202A1N27A18N57A4N36A1N95A1N12A1N36A1N149A3N65A4N51A1N100",
    "A5N9A3N128A2N20272A1N769A16N270A1N1A1N47A1N45A2N67A1N764A1N1183A6N1A42N1A9N810A2N571A6N469A3",
    "N70A11N49A4N192A1N41A1N72A2N120A2N62A1N76A1N9A3N104A2N178A2N81A1N16A1N24A7N3A5N205A1N3A1N123",
    "A2N251A2N126A1N118A2N115A1N269A2N258A2N4A1N156A1N83A1N18A1N81A1N421A1N258A1N1A2N81A1N5807A15",
    "N13978A5N59A7N1112A17N80A2N16382A4N1A7N1A2N7937A46N2A23N544A3N3A6N8A8N2A7N30A4N3714A62N194A7",
    "N375A1N61A4N1504A7N109A3N1A3"]),
  ("Emoji", [
    "N35A1N6A1N5A10N111A1N4A1N8077A1N12A1N216A1N22A1N90A6N15A2N367A2N12A1N166A1N25A11N4A3N199A1",
    "N231A2N10A1N9A1N58A4N1A5N9A1N2A1N2A2N2A1N4A1N2A1N1A2N2A1N3A1N3A2N8A3N5A1N1A1N5A12N11A2N2A1N1",
    "A2N1A1N18A1N2A2N18A6N1A1N1A2N3A2N5A1N2A2N4A2N11A2N5A2N2A1N5A2N1A1N1A2N20A2N5A6N1A4N2A1N4A1N2",
    "A1N2A6N1A1N2A1N1A1N1A1N6A1N3A1N6A1N10A2N15A1N2A1N4A1N1A1N4A3N1A1N11A2N48A3N9A1N14A1N14A1N372",
    "A2N463A3N19A2N51A1N4A1N1242A1N12A1N601A1N1A1N114026A1N202A1N160A2N12A2N14A1N2A10N75A26N1A2",
    "N23A1N20A1N2A9N21A2N174A34N2A112N2A2N1A3N2A83N2A3N1A263N1A63N11A6N1A24N7A2N2A8N12A1N2A4N2A1",
    "N4A2N13A2N2A1N8A2N9A1N5A3N12A3N8A3N2A1N1A1N4A1N6A1N3A1N6A86N48A70N5A8N2A3N4A10N3A1N1A2N3A1N2",
    "A10N227A12N4A1N283A47N1A10N1A185N112A13N3A9N7A46N1A7N8A14N4A9N7A9"]),
  ("Emoji_Component", ["N35A1N6A1N5A10N8147A1N213A1N56619A1N62422A26N507A5N1456A4N788076A96"]),
  ("Emoji_Modifier", ["N127995A5"]),
  ("Emoji_Modifier_Base", [
    "N9757A1N219A1N16A4N117879A1N60A3N2A1N2A3N117A2N2A11N21A19N3A1N4A3N1A3N7A1N1A1N24A1N201A2N4A1",
    "N21A1N4A2N174A3N3A5N83A1N16A3N9A1N11A1N575A1N2A1N8A8N6A1N9A10N2A3N56A1N61A2N1A2N1A1N17A3N1",
    "A13N229A3N42A9"]),
  ("Emoji_Presentation", [
    "N8986A2N205A4N3A1N2A1N521A2N21A2N50A12N43A1N19A1N13A1N8A2N17A2N5A2N8A1N5A1N21A1N7A2N1A1N4A1",
    "N2A1N7A1N4A2N28A1N35A1N1A1N4A3N1A1N61A3N24A1N14A1N859A2N51A1N4A1N115886A1N202A1N190A1N2A10",
    "N75A26N1A1N24A1N20A1N2A5N1A3N21A2N174A33N12A9N1A70N1A22N12A43N4A5N12A17N3A1N3A71N1A1N1A187N2",
    "A63N13A4N1A24N18A1N26A2N13A1N86A85N48A70N6A1N3A3N2A3N4A4N11A2N7A9N227A12N4A1N283A47N1A10N1",
    "A185N112A13N3A9N7A46N1A7N8A14N4A9N7A9"]),
  ("Extended_Pictographic", [
    "N169A1N4A1N8077A1N12A1N216A1N22A1N90A6N15A2N367A2N12A1N95A1N70A1N25A11N4A3N199A1N231A2N10A1",
    "N9A1N58A4N1A6N1A12N1A114N10A118N2A11N1A1N1A1N6A1N3A1N6A1N10A2N15A1N2A1N4A1N1A1N4A3N1A1N11A5",
    "N45A3N9A1N14A1N14A1N372A2N463A3N19A2N51A1N4A1N1242A1N12A1N601A1N1A1N114022A256N13A3N31A1N60",
    "A6N12A2N14A1N2A10N18A57N27A15N10A1N20A1N2A9N1A4N9A434N5A318N8A266N48A128N116A12N85A43N12A4",
    "N56A8N10A6N40A8N30A82N12A47N1A10N1A441N256A1022"]),
  ("Extender", [
    "N183A1N536A2N878A1N441A1N858A1N752A1N127A1N2371A1N56A1N611A1N398A1N68A1N5001A1N43A5N103A2N93",
    "A3N28438A1N1526A1N962A1N22A1N137A1N108A1N21A2N21627A1N2064A2N3034A1N616A3N1231A1N20649A2",
    "N1180A2N1A1N29016A2N2054A3"]),
  ("Grapheme_Extend", [
    "N2494A1N24A1N358A1N24A1N102A1N24A1N234A1N18A2N103A1N24A1N119A1N15A1N3413A1N1238A1N4129A2",
    "N53102A2N5022A1N24A1N344A1N12A1N241A1N896A1N47156A1N8A5N798381A96"]),
  ("Hex_Digit", ["N48A10N7A6N26A6N65193A10N7A6N26A6"]),
  ("IDS_Binary_Operator", ["N12272A2N2A10N497A1"]),
  ("IDS_Trinary_Operator", ["N12274A2"]),
  ("Ideographic", [
    "N12294A2N25A9N14A3N965A6592N64A20992N22784A366N2A106N29962A1N27A6136N8A1238N42A9N9319A396",
    "N19716A42720N32A4154N6A222N2A5762N14A7473N15A622N2466A542N1506A4939N5A4192"]),
  ("Join_Control", ["N8204A2"]),
  ("Logical_Order_Exception", ["N3648A5N123A5N2800A3N2A1N37114A2N2A1N1A2"]),
  ("Lowercase", [
    "N170A1N15A1N501A9N7A2N30A5N96A1N52A1N3457A1N3119A63N13A1N34A37N689A1N13A1N16A13N211A16N848",
    "A26N1938A2N31262A2N210A1N129A3N3A2N866A4N9A1N23574A1N2A3N1A42N1A9N55413A62"]),
  ("Math", [
    "N94A1N881A3N2A1N26A2N2A2N7200A1N27A3N11A1N32A4N24A2N14A2N65A13N4A1N3A2N4A5N18A1N4A1N2A10N1A1",
    "N3A5N6A1N3A2N2A2N1A3N1A6N3A4N5A5N75A5N2A4N1A2N1A2N1A1N1A5N2A2N4A2N4A18N2A2N1A1N1A7N1A1N6A2",
    "N290A4N168A2N1A1N24A1N17A1N445A2N12A9N5A5N5A2N2A2N3A5N14A1N1A1N2A6N24A2N57A1N1A1N29A4N9A2",
    "N342A2N31A10N403A22N63A4N32A2N54371A1N1A1N4A1N211A1N1A1N54465A85N1A71N1A2N2A1N2A2N2A4N1A12N1",
    "A1N1A7N1A65N1A4N2A8N1A7N1A28N1A4N1A5N1A1N3A7N1A340N2A25N1A25N1A31N1A25N1A31N1A25N1A31N1A25N1",
    "A31N1A25N1A8N2A50N5632A4N1A27N1A2N1A1N2A1N1A10N1A4N1A1N1A1N6A1N4A1N1A1N1A1N1A3N1A2N1A1N2A1N1",
    "A1N1A1N1A1N1A1N1A2N1A1N2A4N1A7N1A4N1A4N1A1N1A10N1A17N5A3N1A5N1A17"]),
  ("Noncharacter_Code_Point", [
    "N64976A32N526A2N65534A2N65534A2N65534A2N65534A2N65534A2N65534A2N65534A2N65534A2N65534A2",
    "N65534A2N65534A2N65534A2N65534A2N65534A2N65534A2N65534A2"]),
  ("Pattern_Syntax", [
    "N33A15N10A7N26A4N1A1N26A4N34A7N1A1N1A2N1A1N1A2N4A1N4A1N3A1N23A1N31A1N7960A24N8A15N2A19N1A10",
    "N305A720N160A630N30A1132N512A128N385A3N4A25N15A1N52493A2N261A2"]),
  ("Pattern_White_Space", ["N9A5N18A1N100A1N8072A2N24A2"]),
  ("Quotation_Mark", [
    "N34A1N4A1N131A1N15A1N8028A8N25A2N3591A1N457A4N13A3N52769A4N189A1N4A1N90A2"]),
  ("Radical", ["N11904A26N1A89N12A214"]),
  ("Regional_Indicator", ["N127462A26"]),
  ("Sentence_Terminal", [
    "N33A1N12A1N16A1N1353A1N147A3N180A1N43A3N246A1N61A1N1A1N3A2N293A2N1764A2N790A1N4A2N773A1N198",
    "A2N204A1N5A1N314A2N354A4N174A2N2A2N29A2N188A2N65A2N956A2N9A3N3556A1N13A1N22A2N429A1N29948A1",
    "N270A2N227A1N3A1N382A2N86A2N95A1N152A2N147A3N144A2N249A1N21094A1N3A2N169A1N12A1N16A1N65A1",
    "N2804A2N1277A5N44A4N189A2N117A4N127A3N129A2N6A1N16A2N88A2N1A2N108A1N417A2N373A2N5A15N105A2",
    "N249A3N517A1N1A1N251A2N87A2N420A2N692A2N74A2N19241A2N133A1N65A2N11A1N851A1N19974A1N7656A1"]),
  ("Soft_Dotted", [
    "N105A2N196A1N281A1N30A1N52A1N20A1N320A1N98A1N1A1N6409A1N51A1N13A1N3A1N132A1N157A1N421A1N214",
    "A2N2866A1N108453A2N50A2N50A2N50A2N50A2N50A2N50A2N50A2N50A2N50A2N50A2N50A2N50A2N2182A1N305A2",
    "N26A1"]),
  ("Terminal_Punctuation", [
    "N33A1N10A1N1A1N11A2N3A1N830A1N8A1N513A1N57A1N72A1N14A1N1A3N180A1N43A11N1A1N235A2N54A15N31A1",
    "N261A2N1268A2N172A1N4A6N311A2N789A8N773A1N124A3N71A2N157A3N3A1N39A4N2A2N314A2N354A4N174A2N1",
    "A3N29A2N188A5N62A2N956A2N9A3N3556A1N13A1N4A1N10A1N1A2N3A2N428A2N29947A2N269A3N227A5N382A2N86",
    "A2N95A1N151A3N147A3N127A1N16A2N249A1N21092A3N1A4N169A1N10A1N1A1N11A2N3A1N65A1N2A1N1082A1N48",
    "A1N1158A1N199A1N310A2N152A6N68A6N89A4N952A5N44A4N189A7N112A4N127A3N129A2N6A1N16A2N88A5N108A1",
    "N417A3N12A2N358A4N3A15N105A2N249A3N517A1N1A1N251A2N87A2N4A2N414A3N45A1N645A2N74A2N1323A5",
    "N17913A2N133A1N65A3N10A1N850A2N19974A1N7655A4"]),
  ("Unified_Ideograph", [
    "N13312A6592N64A20992N23054A2N1A1N1A2N10A1N1A1N1A2N2A3N67030A42720N32A4154N6A222N2A5762N14",
    "A7473N15A622N4514A4939N5A4192"]),
  ("Uppercase", ["N8544A16N838A26N117856A26N6A26N6A26"]),
  ("Variation_Selector", ["N6155A3N1A1N58864A16N852720A240"]),
  ("XID_Continue", ["N890R1N11552R2N52161R6N406R2N116R1N1R1N1R1N1R1N1R1N1R1N1R1N1R1"]),
  ("XID_Start", [
    "N890R1N2744R1N127R1N8679R2N52161R6N406R2N116R1N1R1N1R1N1R1N1R1N1R1N1R1N1R1N287R2"]),
  ("Changes_When_Casefolded", [
    "N181A1N41A1N105A1N53A1N453A1N124A1N13A2N3A2N25A2N3A1N401A1N3608R86N2A6N2178A9N529A2N228A8N8",
    "A8N8A8N10A3N2A1N10A3N2A1N42A3N2A1N35704A80N20288A7N12A5"]),
  ("Changes_When_Casemapped", [
    "N170R1N15R1N125R1N84R1N13R1N14R2N14R1N3R1N98R1N18R6N27R1N2R1N1R1N2R3N2R1N1R1N2R1N5R2N1R1N2R2",
    "N1R7N1R2N1R1N2R3N6R5N1R1N1R8N2R26N7R2N30R5N149R1N87R3N39R1N355R1N39R1N2931R1N3075R121N1R3N1",
    "R16N1R49N220R2N1R1N465R1N13R1N16R13N101R1N4R1N2R10N1R1N3R5N6R1N3R1N3R2N1R3N1R2N4R1N2R4N5R5",
    "N2855R1N2R1N2R7N102R1N31159R2N146R2N62R9N21R1N6R1N25R1N35R1N1R1N28R3N3R3N821R35N1R7N1R14",
    "N23574R1N2R3N1R42N1R9N52293R85N1R71N1R2N2R1N2R2N2R4N1R12N1R1N1R7N1R65N1R4N2R8N1R7N1R28N1R4N1",
    "R5N1R1N3R7N1R340N2R25N1R25N1R31N1R25N1R31N1R25N1R31N1R25N1R31N1R25N1R8N1844R10N1R20N6R6N261",
    "R62N4290R26N6R26N6R26"]),
  ("Changes_When_Lowercased", [
    "N978R3N7469R1N4R1N3R3N2R3N2R1N3R5N6R1N3R1N3R2N2R2N1R1N10R2N5R1N111290R26N26R26N26R26N26R1N1",
    "R2N2R1N2R2N2R4N1R8N26R26N26R2N1R4N2R8N1R7N27R2N1R4N1R5N1R1N3R7N27R26N26R26N26R26N26R26N26R26",
    "N26R26N30R25N33R25N33R25N33R25N33R25N33R1N6501R26N6R26N6R26"]),
  ("Changes_When_NFKC_Casefolded", [
    "N160A1N7A1N1A1N2A1N1A1N2A3N3A3N1A3N116A1N12A1N133A1N2A1N2A1N38A1N188A9N31A6N2A5N91A2N1A2N10",
    "A1N36A1N5A1N3A1N5A2N1A1N74A3N29A1N553A1N88A4N735A8N124A2N1A1N83A1N2A1N34A3N2A1N253A2N725A1",
    "N127A1N40A2N46A1N54A1N9A1N4A1N4A1N4A1N12A1N9A1N1A5N7A1N17A1N9A1N4A1N4A1N4A1N12A1N322A1N98A2",
    "N1619A2N85A5N1308A3N1A11N1A18N1A28N13A1N34A37N433A1N1A1N1A1N1A1N1A1N1A1N1A1N63A5N11A3N3A1N9",
    "A3N3A1N9A3N13A2N1A16N1A1N5A1N12A3N3A6N3A2N1A2N4A1N1A1N8A3N13A1N7A19N2A27N1A13N11A1N87A4N1A3",
    "N1A11N1A2N2A5N2A3N1A1N3A1N3A2N1A3N1A7N1A6N4A5N6A16N16A16N9A1N162A2N1A2N248A2N309A86N26A27",
    "N1313A1N103A3N101A1N415A2N241A1N303A1N83A1N12A214N42A1N53A1N1A3N96A2N2A1N95A1N49A94N3A14N96",
    "A31N1A40N8A47N1A384N29340A2N210A1N129A3N3A2N866A4N9A1N19862A270N2A1N1A1N2A10N1A1N1A1N2A2N3",
    "A68N2A106N67A1N1A24N1A5N1A1N1A2N1A2N1A108N33A363N18A64N2A54N40A13N3A26N22A21N2A12N1A19N1A4N4",
    "A3N1A1N1A135N2A1N1A32N26A132N3A6N2A6N2A6N2A3N3A7N1A7N1A9N1928A5N1A42N1A9N46309A4N5306A7N14A8",
    "N64A6N575A85N1A71N1A2N2A1N2A2N2A4N1A12N1A1N1A7N1A65N1A4N2A8N1A7N1A28N1A4N1A5N1A1N3A7N1A340N2",
    "A292N2A50N2096A62N3474A4N1A27N1A2N1A1N2A1N1A10N1A4N1A1N1A1N6A1N4A1N1A1N1A1N1A3N1A2N1A1N2A1N1",
    "A1N1A1N1A1N1A1N1A2N1A1N2A4N1A7N1A4N1A4N1A1N1A10N1A17N5A3N1A5N1A17N580A11N5A31N1A32N26A3N35A1",
    "N111A3N13A44N4A9N7A2N2462A10N64518A542N722402A4096"]),
  ("Changes_When_Titlecased", [
    "N452A1R1N1A1R1N1A1R1N37A1R1N3805R43N2R3N3720R8N8R8N8R8N12R1N15R1N47R1"]),
  ("Changes_When_Uppercased", [
    "N170R1N15R1N125R1N84R1N13R1N14R2N14R1N3R1N98R1N18R6N27R1N2R1N1R1N2R3N2R1N1R1N2R1N5R2N1R1N2R2",
    "N1R7N1R2N1R1N2R3N6R5N1R1N1R8N2R26N7R2N30R5N149R1N129R1N355R1N39R1N2931R1N3075R121N1R3N1R16N1",
    "R49N220R2N1R1N465R1N13R1N16R13N109R1N3R2N3R1N27R1N4R1N4R1N2R2N8R4N2855R1N2R1N2R7N102R1N31159",
    "R2N146R2N62R9N21R1N6R1N25R1N35R1N1R1N28R3N3R3N821R35N1R7N1R14N23574R1N2R3N1R42N1R9N52319R26",
    "N26R7N1R18N26R26N26R4N1R1N1R7N1R11N26R26N26R26N26R26N26R26N26R26N26R26N26R26N26R26N26R28N28",
    "R25N1R6N26R25N1R6N26R25N1R6N26R25N1R6N26R25N1R6N1R1N1844R10N1R20N6R6N261R62"])]

/-- The runs in which a property differs from its categories. -/
def exceptionRuns (name : String) : List Run :=
  Run.ofTexts ((exceptionTexts.lookup name).getD [])

/-- A set with the exceptions of the property of a name. -/
def adjusted (name : String) (s : CharSet) : CharSet :=
  .diff (.union s (.ranges (Run.ranges (·.label == ['A']) (exceptionRuns name))))
    (.ranges (Run.ranges (·.label == ['R']) (exceptionRuns name)))

/-- The code points of a category, written as two letters. -/
def category (code : String) : CharSet :=
  .ranges (categoryRanges (·.label == code.toList))

/-- The code points of some categories. -/
def categories (codes : List String) : CharSet :=
  .ranges (categoryRanges fun r => codes.any fun code => r.label == code.toList)

def lowercase : CharSet :=
  adjusted "Lowercase" (category "Ll")

def uppercase : CharSet :=
  adjusted "Uppercase" (category "Lu")

/-- The letters of either case, and those whose first part is a capital. -/
def cased : CharSet :=
  .union (.union lowercase uppercase) (category "Lt")

def graphemeExtend : CharSet :=
  adjusted "Grapheme_Extend" (categories ["Mn", "Me"])

def identifierStart : CharSet :=
  .diff (.ranges (categoryRanges (·.isLetter) ++ otherStarts)) (.single 0x2E2F)

def identifierPart : CharSet :=
  .diff
    (.ranges (categoryRanges (fun r => r.isLetter || r.isJoined) ++ otherStarts ++ otherParts))
    (.single 0x2E2F)

def changesWhenLowercased : CharSet :=
  adjusted "Changes_When_Lowercased" (.union uppercase (category "Lt"))

def changesWhenUppercased : CharSet :=
  adjusted "Changes_When_Uppercased" (.union lowercase (category "Lt"))

def changesWhenCasefolded : CharSet :=
  adjusted "Changes_When_Casefolded" changesWhenLowercased

def whiteSpace : CharSet :=
  .ranges [(9, 13), (0x20, 0x20), (0x85, 0x85), (0xA0, 0xA0), (0x1680, 0x1680), (0x2000, 0x200A),
    (0x2028, 0x2029), (0x202F, 0x202F), (0x205F, 0x205F), (0x3000, 0x3000)]

/-- The code points that have the property of a long name; a property that is not made of
categories consists of its listed code points. -/
def binarySet (name : String) : CharSet :=
  match name with
  | "Any" => .all
  | "ASCII" => .range 0 127
  | "Assigned" => .complement (category "Cn")
  | "ASCII_Hex_Digit" => .ranges [(48, 57), (65, 70), (97, 102)]
  | "White_Space" => whiteSpace
  | "ID_Start" => identifierStart
  | "ID_Continue" => identifierPart
  | "XID_Start" => adjusted name identifierStart
  | "XID_Continue" => adjusted name identifierPart
  | "Alphabetic" => adjusted name (.ranges (categoryRanges (·.isLetter)))
  | "Lowercase" => lowercase
  | "Uppercase" => uppercase
  | "Cased" => cased
  | "Case_Ignorable" => adjusted name (categories ["Mn", "Me", "Cf", "Lm", "Sk"])
  | "Math" => adjusted name (category "Sm")
  | "Dash" => adjusted name (category "Pd")
  | "Grapheme_Extend" => graphemeExtend
  | "Grapheme_Base" =>
    .diff (.complement (categories ["Cc", "Cf", "Cs", "Co", "Cn", "Zl", "Zp"])) graphemeExtend
  | "Changes_When_Lowercased" => changesWhenLowercased
  | "Changes_When_Uppercased" => changesWhenUppercased
  | "Changes_When_Titlecased" => adjusted name changesWhenUppercased
  | "Changes_When_Casemapped" => adjusted name cased
  | "Changes_When_Casefolded" => changesWhenCasefolded
  | "Changes_When_NFKC_Casefolded" => adjusted name changesWhenCasefolded
  | _ => adjusted name .empty

/-- The code points that have a property, by either of its names. -/
def binarySet? (name : String) : Option CharSet :=
  (binaryNames.find? fun (short, long) => short == name || long == name).map fun (_, long) =>
    binarySet long

end LogTemplate.Unicode
